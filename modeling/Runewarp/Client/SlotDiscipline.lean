import Runewarp.Client.ControllerCalls

/-!
# Slot discipline

Whatever is called and whenever workers exit, an address has one worker at most that
still holds its receivers, the shared worker count is the number of slots, and what
`replace_intent` leaves behind is the assignment.  All of it rests on the generations:
a completion removes the slot of its address only when it is of the slot's generation,
and as long as no two workers have a generation in common that is the completion of
the slot's own worker.

The generation counter saturates.  From then on workers have the generation `u64::MAX`
in common, the completion of a worker that was replaced removes the slot of the one
that replaced it, and the next `add` spawns another beside it.
-/

namespace Runewarp.Client

namespace AddressController

variable {s t : AddressController} {a : ServerAddress} {action : Action}

/-! ## The shared count -/

/-- The shared count is the number of slots, and there are fewer slots than generations
given out. -/
structure Counted (s : AddressController) : Prop where
  count : s.sharedWorkerCount = s.workers.keys.length
  slots_lt : s.workers.keys.length < s.nextGeneration
  generation_le : s.nextGeneration ≤ 2 ^ 64 - 1

theorem counted_start (duration : Nat) : (start duration).Counted := by
  constructor <;> simp [start]

theorem mem_keys_of_lookup (h : s.workers.lookup a ≠ none) : a ∈ s.workers.keys :=
  AList.mem_keys.mp (AList.lookup_isSome.mp (Option.isSome_iff_ne_none.mpr h))

theorem Counted.removeSlot (h : s.Counted) (hs : s.workers.lookup a ≠ none) :
    (s.removeSlot a).Counted := by
  have hm := mem_keys_of_lookup hs
  have hp := List.length_pos_of_mem hm
  have hl : (s.removeSlot a).workers.keys.length = s.workers.keys.length - 1 := by
    simp only [AddressController.removeSlot, AList.keys_erase]
    exact List.length_erase_of_mem hm
  have hlt := h.slots_lt
  have hle := h.generation_le
  refine ⟨?_, ?_, h.generation_le⟩
  · rw [hl]
    show (s.sharedWorkerCount + (2 ^ 64 - 1)) % 2 ^ 64 = _
    rw [h.count]
    omega
  · rw [hl]
    show s.workers.keys.length - 1 < s.nextGeneration
    omega

theorem Counted.spawnWorker (h : s.Counted) (hn : s.workers.lookup a = none)
    (hs : s.nextGeneration < 2 ^ 64 - 1) : (s.spawnWorker a).Counted := by
  have hno : a ∉ s.workers.keys := by
    intro hm
    have := AList.lookup_isSome.mpr (AList.mem_keys.mpr hm)
    simp [hn] at this
  have hl : (s.spawnWorker a).workers.keys.length = s.workers.keys.length + 1 := by
    simp [AddressController.spawnWorker, AList.keys_insert, List.erase_of_not_mem hno]
  have hlt := h.slots_lt
  refine ⟨?_, ?_, ?_⟩
  · rw [hl]
    show (s.sharedWorkerCount + 1) % 2 ^ 64 = _
    rw [h.count]
    omega
  · rw [hl]
    show _ < min (s.nextGeneration + 1) (2 ^ 64 - 1)
    omega
  · show min (s.nextGeneration + 1) (2 ^ 64 - 1) ≤ 2 ^ 64 - 1
    omega

theorem Counted.respawn (h : s.Counted) (hs : s.workers.lookup a ≠ none)
    (hsa : s.nextGeneration < 2 ^ 64 - 1) : ((s.removeSlot a).spawnWorker a).Counted :=
  (h.removeSlot hs).spawnWorker lookup_removeSlot_self hsa

variable {w : AddressWorker} {i : Nat} {desired : List ServerAddress} {b : ServerAddress}

theorem lookup_ne_none_of_slotWorker (h : s.slotWorker a = some w) : s.workers.lookup a ≠ none := by
  obtain ⟨slot, hs, -⟩ := Option.bind_eq_some_iff.mp h
  simp [hs]

theorem lookup_ne_none_of_isCurrent (h : s.isCurrent w = true) :
    s.workers.lookup w.address ≠ none := by
  intro hn
  simp [isCurrent, hn] at h

theorem Counted.yielded (h : s.Counted) (hc : s.isCurrent w = true) : (s.yielded i w).Counted :=
  Counted.removeSlot (s := { s with running := s.running.erase i }) { h with }
    (lookup_ne_none_of_isCurrent hc)

theorem Counted.move (h : s.Counted) (hs : s.Unsaturated action) (hm : Move s action t) :
    t.Counted := by
  cases hm with
  | discards _ _ hw => exact { h.removeSlot (lookup_ne_none_of_slotWorker hw) with }
  | respawns _ hsl => exact { h.respawn hsl (hs rfl) with }
  | spawns _ hn => exact { h.spawnWorker hn (hs rfl) with }
  | yieldsOk _ hc | yieldsError _ hc | yieldsLaterError _ hc => exact { h.yielded hc with }
  | _ => exact { h with }

/-! ## What `replace_intent` has done so far -/

/-- The slot for `a`, while its worker is live, has the intent that `desired` asks
for. -/
def Obeys (s : AddressController) (desired : List ServerAddress) (a : ServerAddress) : Prop :=
  ∀ w, s.slotWorker a = some w → w.isLive = true → (w.intent = .maintain ↔ a ∈ desired)

theorem Obeys.of_removeSlot (h : b ≠ a → s.Obeys desired b) : (s.removeSlot a).Obeys desired b := by
  intro w hw
  obtain ⟨hba, hw⟩ := slotWorker_of_removeSlot hw
  exact h hba w hw

theorem Tracked.obeys_spawnWorker (h : s.Tracked) (ha : a ∈ desired)
    (hb : b ≠ a → s.Obeys desired b) : (s.spawnWorker a).Obeys desired b := by
  intro w hw hl
  rcases eq_or_ne b a with rfl | hba
  · cases slotWorker_spawnWorker_self.symm.trans hw
    exact iff_of_true rfl ha
  · exact hb hba w ((h.slotWorker_spawnWorker_ne hba).symm.trans hw) hl

/-- What is sent to `a` is what `desired` asks for. -/
theorem Tracked.obeys_sendIntent (h : s.Tracked) {intent : MaintenanceIntent}
    (ha : intent = .maintain ↔ a ∈ desired) (hb : b ≠ a → s.Obeys desired b) :
    (s.sendIntent a intent).Obeys desired b := by
  intro w hw hl
  rcases h.slotWorker_of_sendIntent hw with ⟨hba, hw⟩ | ⟨rfl, u, hu, rfl⟩
  · exact hb hba w hw hl
  · rw [isLive_sendIntent] at hl
    rw [intent_sendIntent, hl]
    exact ha

theorem TaskStep.isLive_of_isLive {u v : AddressWorker} (h : s.TaskStep i u v)
    (hl : v.isLive = true) : u.isLive = true := by
  rcases h with hp | hs
  · simpa [AddressWorker.isLive, hp] using hl
  · exact hs.isLive_of_isLive hl

theorem obeys_of_passes (hk : a ∈ desired → s.maintenanceIntent a ≠ some .retire)
    (hd : a ∉ desired → s.maintenanceIntent a = some .maintain → s.workerIsLive a = false) :
    s.Obeys desired a := by
  intro w hw hl
  have hin : s.maintenanceIntent a = some w.intent := by simp [maintenanceIntent, hw]
  have hwo : s.workerIsLive a = true := workerIsLive_iff.mpr ⟨w, hw, hl⟩
  constructor
  · intro hi
    by_contra ha
    simp [hd ha (hin.trans (congrArg some hi))] at hwo
  · intro ha
    cases hi : w.intent with
    | maintain => rfl
    | retire => exact (hk ha (hin.trans (congrArg some hi))).elim

/-- A worker that lets go of its receivers, or is without them, moves on. -/
theorem Obeys.setTask {w' : AddressWorker} (h : s.Obeys desired a) (hw : s.tasks[i]? = some w)
    (hd : w'.isLive = false) :
    ({ s with tasks := s.tasks.set i w' } : AddressController).Obeys desired a := by
  intro v hv hl
  rcases slotWorker_setTask hw hv with hv | ⟨rfl, -⟩
  · exact h v hv hl
  · simp [hd] at hl

end AddressController

namespace ControllerCalls

open AddressController (Obeys)

variable {c d : ControllerCalls} {a : ServerAddress} {x : Call}

/-- There is a slot for `a`, and its worker is live or has exited since `replace_intent`
was called. -/
def Kept (c : ControllerCalls) (a : ServerAddress) : Prop :=
  ∃ slot w, c.controller.workers.lookup a = some slot ∧
    c.controller.tasks[slot.task]? = some w ∧ (w.isLive = true ∨ slot.task ∈ c.exited)

/-- How far `replace_intent` has come. -/
def Replaced (c : ControllerCalls) : RunState → Prop
  | .revising todo desired => ∀ a, a ∉ todo → c.controller.Obeys desired a
  | .reAdopting b todo desired =>
    b ∈ desired ∧ ∀ a, a ≠ b → a ∉ todo → c.controller.Obeys desired a
  | .adding todo desired =>
    todo ⊆ desired ∧ (∀ a, c.controller.Obeys desired a) ∧ ∀ a ∈ desired, a ∉ todo → c.Kept a
  | .selecting | .draining _ | .returned _ => True

structure Inv (c : ControllerCalls) : Prop where
  tracked : c.controller.Tracked
  counted : c.controller.Counted
  sending : c.sending ≠ none → c.controller.run = .selecting
  exited : ∀ i ∈ c.exited, ∃ w, c.controller.tasks[i]? = some w ∧ w.isLive = false
  replaced : c.Replaced c.controller.run

theorem inv_start (duration : Nat) : (start duration).Inv where
  tracked := AddressController.tracked_start duration
  counted := AddressController.counted_start duration
  sending := by simp [start]
  exited := by simp [start]
  replaced := by trivial

/-- The generation counter has not come to its last value when a worker may be
spawned. -/
def Unsaturated (c : ControllerCalls) (x : Call) : Prop :=
  x.maySpawn = true → c.controller.nextGeneration < 2 ^ 64 - 1

instance (c : ControllerCalls) (x : Call) : Decidable (c.Unsaturated x) :=
  inferInstanceAs (Decidable (_ → _))

variable {l : Loop} {s : AddressController} {i : Nat} {w : AddressWorker}

theorem Unsaturated.action (h : c.Unsaturated (.loop l)) : c.controller.Unsaturated l.action := by
  intro hl
  cases l with
  | addNext => exact h rfl
  | _ => cases hl

theorem Inv.tracked_of_moves (h : c.Inv) (hs : c.Unsaturated x) (hm : Moves c x d) :
    d.controller.Tracked := by
  have ht := h.tracked
  cases hm with
  | begins => exact { ht with }
  | spawns _ hn => exact ht.spawnWorker hn (hs rfl)
  | respawns _ _ hd =>
    have hre := ht.removeSlot (AddressController.dead_of_workerIsLive hd)
    exact hre.spawnWorker AddressController.lookup_removeSlot_self (hs rfl)
  | sends => exact ht.sendIntent _
  | proceeds hmo => exact ht.move hs.action hmo
  | yieldsStale _ hy hc => exact ht.yieldedStale hy hc
  | yields _ hy hc => exact ht.yielded hy hc
  | exits hw hl =>
    refine ht.setTask hw rfl rfl (fun _ => hl) fun r hr => ?_
    simp [AddressWorker.isLive, hr, WorkerPhase.holdsReceivers] at hl
  | finishes hw hp => exact ht.setTask hw rfl rfl (fun h => by cases h) fun _ _ => ⟨_, rfl⟩
  | _ => exact ht

theorem Inv.counted_of_moves (h : c.Inv) (hs : c.Unsaturated x) (hm : Moves c x d) :
    d.controller.Counted := by
  have hco := h.counted
  cases hm with
  | spawns _ hn => exact hco.spawnWorker hn (hs rfl)
  | respawns _ hsl => exact hco.respawn hsl (hs rfl)
  | proceeds hmo => exact hco.move hs.action hmo
  | yields _ _ hc => exact hco.yielded hc
  | _ => exact { hco with }

/-- The steps of `replace_intent` are taken inside the call. -/
theorem run_ne_selecting_of_loop {t : AddressController} (hm : s.Move l.action t) :
    s.run ≠ .selecting := by
  cases l <;> cases hm <;> simp [*]

theorem Inv.sending_of_moves (h : c.Inv) (hm : Moves c x d) :
    d.sending ≠ none → d.controller.run = .selecting := by
  intro hs
  cases hm with
  | announces hi => exact hi.1
  | sends => exact (hs rfl).elim
  | begins hi => exact (hs hi.2).elim
  | proceeds hmo => exact (run_ne_selecting_of_loop hmo (h.sending hs)).elim
  | _ => exact h.sending hs

/-! ## Tasks without receivers -/

theorem dead_sendIntent {intent : MaintenanceIntent}
    (h : ∃ w, s.tasks[i]? = some w ∧ w.isLive = false) :
    ∃ w, (s.sendIntent a intent).tasks[i]? = some w ∧ w.isLive = false := by
  obtain ⟨w, hw, hd⟩ := h
  cases hu : s.slotWorker a with
  | none =>
    rw [AddressController.sendIntent_eq_self hu]
    exact ⟨w, hw, hd⟩
  | some u =>
    obtain ⟨slot, -, ht, heq⟩ := AddressController.sendIntent_eq hu intent
    rw [heq]
    simp only [AddressController.getElem?_set_of_some ht]
    split
    next hi =>
      subst hi
      cases ht.symm.trans hw
      exact ⟨_, rfl, hd⟩
    next => exact ⟨w, hw, hd⟩

theorem dead_setTask {j : Nat} {w' : AddressWorker} (hw : s.tasks[i]? = some w)
    (hd : w'.isLive = false) (h : ∃ w, s.tasks[j]? = some w ∧ w.isLive = false) :
    ∃ v, (s.tasks.set i w')[j]? = some v ∧ v.isLive = false := by
  rw [AddressController.getElem?_set_of_some hw]
  split
  next => exact ⟨w', rfl, hd⟩
  next => exact h

theorem getElem?_spawnWorker (h : s.tasks[i]? = some w) : (s.spawnWorker a).tasks[i]? = some w := by
  have hi : i < s.tasks.length := (List.getElem?_eq_some_iff.mp h).1
  simpa [AddressController.spawnWorker, List.getElem?_append_left hi] using h

theorem Inv.exited_of_moves (h : c.Inv) (hm : Moves c x d) :
    ∀ i ∈ d.exited, ∃ w, d.controller.tasks[i]? = some w ∧ w.isLive = false := by
  intro i hi
  cases hm with
  | begins => cases hi
  | spawns | respawns =>
    obtain ⟨w, hw, hd⟩ := h.exited i hi
    exact ⟨w, getElem?_spawnWorker hw, hd⟩
  | sends => exact dead_sendIntent (h.exited i hi)
  | proceeds hmo =>
    obtain ⟨w, hw, hd⟩ := h.exited i hi
    obtain ⟨v, hv, hs⟩ := AddressController.task_kept_of_move hmo hw
    refine ⟨v, hv, ?_⟩
    by_contra hl
    have hwa : w.isLive = true := hs.isLive_of_isLive (by simpa using hl)
    simp [hd] at hwa
  | @exits j w r hw hl =>
    rcases List.mem_cons.mp hi with rfl | hi
    · exact ⟨w.goTo (.dropped r), by simp [setTask, AddressController.getElem?_set_of_some hw],
        rfl⟩
    · exact dead_setTask hw rfl (h.exited i hi)
  | finishes hw => exact dead_setTask hw rfl (h.exited i hi)
  | _ => exact h.exited i hi

/-! ## The steps of `replace_intent` -/

theorem Kept.of_spawnWorker {b : ServerAddress}
    (h : ({ c with controller := s } : ControllerCalls).Kept b) (hba : b ≠ a) :
    ({ c with controller := s.spawnWorker a } : ControllerCalls).Kept b := by
  obtain ⟨slot, w, hs, hw, hl⟩ := h
  exact ⟨slot, w, (AList.lookup_insert_ne hba).trans hs, getElem?_spawnWorker hw, hl⟩

theorem Kept.of_removeSlot {b : ServerAddress} (h : c.Kept b) (hba : b ≠ a) :
    ({ c with controller := c.controller.removeSlot a } : ControllerCalls).Kept b := by
  obtain ⟨slot, w, hs, hw, hl⟩ := h
  exact ⟨slot, w, (AList.lookup_erase_ne hba).trans hs, hw, hl⟩

theorem kept_spawnWorker_self :
    ({ c with controller := s.spawnWorker a } : ControllerCalls).Kept a := by
  refine ⟨⟨s.tasks.length, s.nextGeneration⟩, .spawn a s.nextGeneration, AList.lookup_insert _, ?_,
    .inl rfl⟩
  simp [AddressController.spawnWorker]

theorem kept_of_live (hw : c.controller.slotWorker a = some w) (hl : w.isLive = true) :
    c.Kept a := by
  obtain ⟨slot, hs, ht⟩ := Option.bind_eq_some_iff.mp hw
  exact ⟨slot, w, hs, ht, .inl hl⟩

theorem Replaced.next {todo desired : List ServerAddress}
    (h : c.Replaced (.adding (a :: todo) desired)) (ho : ∀ b, d.controller.Obeys desired b)
    (hs : d.Kept a) (hot : ∀ b, b ≠ a → c.Kept b → d.Kept b) :
    d.Replaced (.adding todo desired) := by
  obtain ⟨hsu, -, hk⟩ := h
  refine ⟨fun b hb => hsu (.tail _ hb), ho, fun b hb hn => ?_⟩
  rcases eq_or_ne b a with rfl | hba
  · exact hs
  · exact hot b hba (hk b hb (by simp [hba, hn]))

theorem Inv.replaced_of_loop (h : c.Inv) (hm : c.controller.Move l.action s) :
    ({ c with controller := s } : ControllerCalls).Replaced s.run := by
  have hr := h.replaced
  cases l with
  | visit a =>
    cases hm with
    | passes hru hk _ hdr =>
      rw [hru] at hr
      intro b hb
      rcases eq_or_ne b a with rfl | hba
      · exact AddressController.obeys_of_passes hk hdr
      · exact hr b fun hme => hb ((List.mem_erase_of_ne hba).mpr hme)
    | finds hru hd =>
      rw [hru] at hr
      exact ⟨hd, fun b hba hb => hr b fun hme => hb ((List.mem_erase_of_ne hba).mpr hme)⟩
    | discards hru =>
      rw [hru] at hr
      intro b hb
      exact Obeys.of_removeSlot fun hba =>
        hr b fun hme => hb ((List.mem_erase_of_ne hba).mpr hme)
    | retires hru hd =>
      rw [hru] at hr
      intro b hb
      exact h.tracked.obeys_sendIntent (by simp [hd]) fun hba =>
        hr b fun hme => hb ((List.mem_erase_of_ne hba).mpr hme)
  | reAdopt =>
    cases hm with
    | reAdopts hru =>
      rw [hru] at hr
      intro b hb
      exact h.tracked.obeys_sendIntent (by simp [hr.1]) fun hba => hr.2 b hba hb
  | beginAdding =>
    cases hm with
    | beginsAdding hru =>
      rw [hru] at hr
      exact ⟨fun _ => id, fun b => hr b (by simp), fun b hb hn => (hn hb).elim⟩
  | addNext =>
    cases hm with
    | skips hru hw hl =>
      rw [hru] at hr
      exact hr.next hr.2.1 (kept_of_live hw hl) fun _ _ => id
    | respawns hru _ hde =>
      rw [hru] at hr
      have hre := h.tracked.removeSlot (AddressController.dead_of_workerIsLive hde)
      refine hr.next (fun b => ?_) kept_spawnWorker_self fun b hba hb =>
        (hb.of_removeSlot hba).of_spawnWorker hba
      exact hre.obeys_spawnWorker (hr.1 (by simp)) fun _ =>
        Obeys.of_removeSlot fun _ => hr.2.1 b
    | spawns hru =>
      rw [hru] at hr
      refine hr.next (fun b => ?_) kept_spawnWorker_self fun b hba hb => hb.of_spawnWorker hba
      exact h.tracked.obeys_spawnWorker (hr.1 (by simp)) fun _ => hr.2.1 b
  | returns =>
    cases hm with
    | acknowledges => trivial

theorem Replaced.mono {r : RunState} (h : c.Replaced r)
    (ho : ∀ desired a, c.controller.Obeys desired a → d.controller.Obeys desired a)
    (hk : ∀ a, c.Kept a → d.Kept a) : d.Replaced r := by
  match r with
  | .selecting | .draining _ | .returned _ => trivial
  | .revising _ _ => exact fun a ha => ho _ a (h a ha)
  | .reAdopting _ _ _ => exact ⟨h.1, fun a hab ha => ho _ a (h.2 a hab ha)⟩
  | .adding _ _ =>
    exact ⟨h.1, fun a => ho _ a (h.2.1 a), fun a ha hn => hk a (h.2.2 a ha hn)⟩

/-- A worker without receivers, or one that drops them and is noted, moves on. -/
theorem Kept.setTask {w' : AddressWorker} {exited : List Nat} (hw : c.controller.tasks[i]? = some w)
    (he : c.exited ⊆ exited) (hn : w.isLive = true → i ∈ exited) (h : c.Kept a) :
    ({ c.setTask i w' with exited := exited } : ControllerCalls).Kept a := by
  obtain ⟨slot, v, hs, hv, hl⟩ := h
  rcases eq_or_ne i slot.task with rfl | hne
  · cases hw.symm.trans hv
    refine ⟨slot, w', hs, ?_, .inr ?_⟩
    · simp [ControllerCalls.setTask, AddressController.getElem?_set_of_some hw]
    · exact hl.elim hn fun hm => he hm
  · refine ⟨slot, v, hs, ?_, hl.imp_right fun hm => he hm⟩
    simpa [ControllerCalls.setTask, AddressController.getElem?_set_of_some hw, hne] using hv

theorem Inv.replaced_of_moves (h : c.Inv) (hm : Moves c x d) : d.Replaced d.controller.run := by
  have hr := h.replaced
  cases hm with
  | keeps => exact hr
  | announces hi | spawns hi | respawns hi | yieldsStale hi | yields hi =>
    show ControllerCalls.Replaced _ c.controller.run
    rw [hi.1]
    trivial
  | sends hs =>
    show ControllerCalls.Replaced _ c.controller.run
    rw [h.sending (by simp [hs])]
    trivial
  | begins =>
    -- What has no slot has no intent.
    intro a ha w hw
    have hsl := AddressController.lookup_ne_none_of_slotWorker hw
    exact (ha (AddressController.mem_keys_of_lookup hsl)).elim
  | proceeds hmo => exact h.replaced_of_loop hmo
  | exits hw =>
    exact hr.mono (fun _ _ ho => ho.setTask hw rfl)
      fun _ => Kept.setTask hw (by simp) (by simp)
  | finishes hw hp =>
    refine hr.mono (fun _ _ ho => ho.setTask hw rfl) fun _ => Kept.setTask hw (fun _ => id) ?_
    simp [AddressWorker.isLive, hp, WorkerPhase.holdsReceivers]

theorem Inv.step (h : c.Inv) (hs : c.Unsaturated x) (hst : system.step c x = some d) : d.Inv :=
  have hm := moves_of_step hst
  ⟨h.tracked_of_moves hs hm, h.counted_of_moves hs hm, h.sending_of_moves hm,
    h.exited_of_moves hm, h.replaced_of_moves hm⟩

/-! ## Discipline -/

/-- At most one worker task of an address still holds a control receiver. -/
def AtMostOneLive (c : ControllerCalls) : Prop :=
  ∀ (i j : Nat) (v w : AddressWorker), c.controller.tasks[i]? = some v →
    c.controller.tasks[j]? = some w → v.address = w.address → v.isLive = true →
    w.isLive = true → i = j

/-- The slot for `a` is live, with this intent. -/
def LiveWith (c : ControllerCalls) (intent : MaintenanceIntent) (a : ServerAddress) : Prop :=
  ∃ w, c.controller.slotWorker a = some w ∧ w.isLive = true ∧ w.intent = intent

/-- The worker of the slot for `a` has exited since `replace_intent` was called. -/
def ExitedMeanwhile (c : ControllerCalls) (a : ServerAddress) : Prop :=
  ∃ slot, c.controller.workers.lookup a = some slot ∧ slot.task ∈ c.exited

structure Disciplined (c : ControllerCalls) : Prop where
  single : c.AtMostOneLive
  /-- As `replace_intent` returns, the slots live with Maintain are those of `desired`;
  a worker that exits during the call leaves its slot behind. -/
  maintained : ∀ desired, c.controller.run = .adding [] desired →
    ∀ a, c.LiveWith .maintain a ↔ a ∈ desired ∧ ¬ c.ExitedMeanwhile a
  /-- As `replace_intent` returns, every other live slot is Retire. -/
  retired : ∀ desired, c.controller.run = .adding [] desired →
    ∀ a w, c.controller.slotWorker a = some w → w.isLive = true → a ∉ desired →
      w.intent = .retire
  count : c.controller.sharedWorkerCount = c.controller.workers.keys.length
  /-- The count is lowered only for a slot that was found, and then it is not zero. -/
  positive : ∀ a, c.controller.workers.lookup a ≠ none → 0 < c.controller.sharedWorkerCount
  /-- A completion of an older generation does not remove a newer slot. -/
  older : ∀ i d w slot, system.step c (.nextCompletion i) = some d →
    c.controller.tasks[i]? = some w → c.controller.workers.lookup w.address = some slot →
    w.generation < slot.generation → d.controller.workers.lookup w.address = some slot
  /-- Nor does the completion of a worker remove the slot of any other. -/
  other : ∀ i d a slot, system.step c (.nextCompletion i) = some d →
    c.controller.workers.lookup a = some slot → slot.task ≠ i →
    d.controller.workers.lookup a = some slot

theorem Inv.atMostOneLive (h : c.Inv) : c.AtMostOneLive := by
  intro i j v w hv hw hvw hlv hlw
  obtain ⟨slot, hs, rfl⟩ := h.tracked.live i v hv hlv
  obtain ⟨slot', hs', rfl⟩ := h.tracked.live j w hw hlw
  rw [hvw, hs'] at hs
  exact congrArg WorkerSlot.task (Option.some.inj hs).symm

theorem Inv.maintained (h : c.Inv) {desired : List ServerAddress}
    (hru : c.controller.run = .adding [] desired) (a : ServerAddress) :
    c.LiveWith .maintain a ↔ a ∈ desired ∧ ¬ c.ExitedMeanwhile a := by
  have hr := h.replaced
  rw [hru] at hr
  obtain ⟨-, ho, hk⟩ := hr
  constructor
  · rintro ⟨w, hw, hl, hi⟩
    refine ⟨(ho a w hw hl).mp hi, ?_⟩
    rintro ⟨slot, hs, he⟩
    obtain ⟨v, hv, hd⟩ := h.exited _ he
    have hvw : c.controller.slotWorker a = some v := by
      simp [AddressController.slotWorker, hs, hv]
    cases hw.symm.trans hvw
    simp [hd] at hl
  · rintro ⟨ha, hst⟩
    obtain ⟨slot, w, hs, hw, hl | he⟩ := hk a ha (by simp)
    · have hwo : c.controller.slotWorker a = some w := by
        simp [AddressController.slotWorker, hs, hw]
      exact ⟨w, hwo, hl, (ho a w hwo hl).mpr ha⟩
    · exact (hst ⟨slot, hs, he⟩).elim

/-- Only the slot of the completed worker goes. -/
theorem Inv.lookup_of_nextCompletion (h : c.Inv) {slot : WorkerSlot}
    (hst : system.step c (.nextCompletion i) = some d)
    (hs : c.controller.workers.lookup a = some slot) (hne : slot.task ≠ i) :
    d.controller.workers.lookup a = some slot := by
  cases moves_of_step hst with
  | yields _ hy hc =>
    obtain ⟨current, hcu, rfl⟩ := h.tracked.slot_of_current hy.worker hc
    refine (AList.lookup_erase_ne ?_).trans hs
    rintro rfl
    exact hne (congrArg WorkerSlot.task (Option.some.inj (hs.symm.trans hcu)))
  | _ => exact hs

/-- In every run in which no worker is spawned with the generation counter at its last
value, the slots are in order. -/
theorem slot_discipline {duration : Nat} (hrun : system.Steps Unsaturated (start duration) c) :
    c.Disciplined := by
  have h : c.Inv := by
    refine hrun.invariant (I := Inv) ?_ (inv_start duration)
    intro c x d h hsa hst
    exact h.step hsa hst
  refine ⟨h.atMostOneLive, fun _ he => h.maintained he, ?_, h.counted.count, ?_, ?_,
    fun _ _ _ _ => h.lookup_of_nextCompletion⟩
  · intro desired he a w hw hl ha
    have hr := h.replaced
    rw [he] at hr
    cases hi : w.intent with
    | maintain => exact (ha ((hr.2.1 a w hw hl).mp hi)).elim
    | retire => rfl
  · intro a hs
    rw [h.counted.count]
    exact List.length_pos_of_mem (AddressController.mem_keys_of_lookup hs)
  · intro i d w slot hst hw hs hlt
    refine h.lookup_of_nextCompletion hst hs ?_
    rintro rfl
    obtain ⟨-, v, hv, -, hg⟩ := h.tracked.slot _ slot hs
    cases hw.symm.trans hv
    omega

def relay : ServerAddress := ⟨⟨"relay.example.test"⟩, 443⟩

def standby : ServerAddress := ⟨⟨"standby.example.test"⟩, 443⟩

/-- One worker has exited and is not reaped, the other is not wanted any more:
`replace_intent` respawns the one and retires the other. -/
theorem slot_discipline_after_exit :
    ∃ c, system.Steps Unsaturated (start 10) c ∧ c.controller.run = .adding [] [relay] ∧
      c.controller.sharedWorkerCount = 2 ∧ c.LiveWith .maintain relay ∧ c.Disciplined := by
  have hex : ∃ c ∈ system.execWhile Unsaturated (start 10)
      [.add relay, .add standby, .exit 0 (.ok ()), .replaceIntent [relay], .loop (.visit relay),
        .loop (.visit standby), .loop .beginAdding, .loop .addNext],
      c.controller.run = .adding [] [relay] ∧ c.controller.sharedWorkerCount = 2 ∧
        c.exited = [] := by
    decide
  obtain ⟨c, hc, hen, hco, he⟩ := hex
  have hd := slot_discipline (.of_execWhile hc)
  refine ⟨c, .of_execWhile hc, hen, hco, ?_, hd⟩
  refine (hd.maintained _ hen relay).mpr ⟨by simp, ?_⟩
  rintro ⟨slot, -, hm⟩
  simp [he] at hm

/-! ## The counter at its last value -/

/-- No call is under way and `a` has no slot. -/
structure Rested (c : ControllerCalls) (a : ServerAddress) : Prop where
  idle : c.Idle
  slot : c.controller.workers.lookup a = none

/-- `add` spawns a worker for an address without a slot. -/
theorem Rested.step_add (h : c.Rested a) :
    system.step c (.add a) = some { c with controller := c.controller.spawnWorker a } := by
  simp [system, ControllerCalls.step, h.idle, ControllerCalls.add, h.slot]

/-- A worker that exits cleanly, up to the end of its task. -/
def workerGone (c : ControllerCalls) (i : Nat) (w : AddressWorker) : ControllerCalls :=
  { c.setTask i (w.goTo (.finished (.ok ()))) with exited := i :: c.exited }

theorem reaches_workerGone (hw : c.controller.tasks[i]? = some w) (hl : w.isLive = true) :
    system.Reaches c (c.workerGone i w) := by
  let d : ControllerCalls :=
    { c.setTask i (w.goTo (.dropped (.ok ()))) with exited := i :: c.exited }
  have he : system.step c (.exit i (.ok ())) = some d := by
    simp [system, ControllerCalls.step, hw, hl, d]
  have hf : system.step d (.finish i) = some (c.workerGone i w) := by
    simp [system, ControllerCalls.step, d, setTask, AddressController.getElem?_set_of_some hw,
      workerGone, AddressWorker.goTo]
  exact .head trivial he (.head trivial hf .refl)

theorem step_nextCompletion {r : Except String Unit} (hi : c.Idle) (hy : c.controller.Yields i w r)
    (hc : c.controller.isCurrent w = true) : system.step c (.nextCompletion i) =
      some { c with controller := c.controller.yielded i w } := by
  simp [system, ControllerCalls.step, hi, AddressController.completion, hy.worker, hy.finished,
    hy.running, hc, AddressController.yielded]

/-- A worker is spawned for `a` and exits; its completion is still to be taken. -/
def spent (c : ControllerCalls) (a : ServerAddress) : ControllerCalls :=
  ({ c with controller := c.controller.spawnWorker a } : ControllerCalls).workerGone
    c.controller.tasks.length (.spawn a c.controller.nextGeneration)

def spentWorker (c : ControllerCalls) (a : ServerAddress) : AddressWorker :=
  (AddressWorker.spawn a c.controller.nextGeneration).goTo (.finished (.ok ()))

theorem Rested.reaches_spent (h : c.Rested a) : system.Reaches c (c.spent a) := by
  refine .head trivial h.step_add (reaches_workerGone ?_ rfl)
  simp [AddressController.spawnWorker]

theorem tasks_spent :
    (c.spent a).controller.tasks = c.controller.tasks ++ [c.spentWorker a] := by
  simp [spent, spentWorker, workerGone, setTask, AddressController.spawnWorker]

theorem yields_spent :
    (c.spent a).controller.Yields c.controller.tasks.length (c.spentWorker a) (.ok ()) := by
  refine ⟨by simp [tasks_spent], rfl, ?_⟩
  simp [spent, workerGone, setTask, AddressController.spawnWorker]

theorem lookup_spent : (c.spent a).controller.workers.lookup a =
    some ⟨c.controller.tasks.length, c.controller.nextGeneration⟩ :=
  AList.lookup_insert _

/-- A worker is spawned, exits and is reaped: all that stays is that a generation was
given out. -/
theorem Rested.round (h : c.Rested a) :
    ∃ d, system.Reaches c d ∧ d.Rested a ∧
      d.controller.nextGeneration = min (c.controller.nextGeneration + 1) (2 ^ 64 - 1) := by
  let reaped : ControllerCalls :=
    { c.spent a with
      controller :=
        (c.spent a).controller.yielded c.controller.tasks.length (c.spentWorker a) }
  have hc : (c.spent a).controller.isCurrent (c.spentWorker a) = true := by
    rw [AddressController.isCurrent, show (c.spentWorker a).address = a from rfl, lookup_spent]
    exact beq_self_eq_true _
  have hr : system.step (c.spent a) (.nextCompletion c.controller.tasks.length) = some reaped :=
    step_nextCompletion h.idle yields_spent hc
  exact ⟨reaped, h.reaches_spent.tail trivial hr,
    ⟨h.idle, AddressController.lookup_removeSlot_self⟩, rfl⟩

/-- Round after round the counter comes to its last value. -/
theorem Rested.rounds (h : c.Rested a) (hg : c.controller.nextGeneration ≤ 2 ^ 64 - 1)
    (n : Nat) :
    ∃ d, system.Reaches c d ∧ d.Rested a ∧
      d.controller.nextGeneration = min (c.controller.nextGeneration + n) (2 ^ 64 - 1) := by
  induction n with
  | zero => exact ⟨c, .refl, h, by omega⟩
  | succ n ih =>
    obtain ⟨d, hd, hr, hn⟩ := ih
    obtain ⟨e, he, hr', hn'⟩ := hr.round
    exact ⟨e, hd.trans he, hr', by omega⟩

/-- The last generation is given out twice: the completion of the worker that exited
removes the slot of the one that replaced it, and `add` spawns a third beside that. -/
theorem Rested.two_live (h : c.Rested a) (hl : c.controller.nextGeneration = 2 ^ 64 - 1) :
    ∃ d, system.Reaches c d ∧ ¬ d.AtMostOneLive := by
  let n := c.controller.tasks.length
  let s := (c.spent a).controller
  let replaced : ControllerCalls :=
    { c.spent a with controller := (s.removeSlot a).spawnWorker a }
  let removed : ControllerCalls :=
    { replaced with controller := replaced.controller.yielded n (c.spentWorker a) }
  let again : ControllerCalls := { removed with controller := removed.controller.spawnWorker a }
  have hr : system.step (c.spent a) (.add a) = some replaced := by
    have hd : s.workerIsLive a = false := by
      simp [AddressController.workerIsLive, AddressController.slotWorker, s, lookup_spent,
        tasks_spent, spentWorker, AddressWorker.isLive, AddressWorker.goTo,
        WorkerPhase.holdsReceivers]
    have hi : (c.spent a).Idle := h.idle
    simp [system, ControllerCalls.step, hi, ControllerCalls.add, s, hd, lookup_spent,
      replaced]
  have hre : system.step replaced (.nextCompletion n) = some removed := by
    have hs : s.nextGeneration = (c.spentWorker a).generation := by
      show min (c.controller.nextGeneration + 1) (2 ^ 64 - 1) = c.controller.nextGeneration
      omega
    have hsl : replaced.controller.workers.lookup a = some ⟨s.tasks.length, s.nextGeneration⟩ :=
      AList.lookup_insert _
    have hy : (c.spent a).controller.Yields n (c.spentWorker a) (.ok ()) := yields_spent
    refine step_nextCompletion h.idle ⟨?_, rfl, List.mem_append_left _ hy.running⟩ ?_
    · exact getElem?_spawnWorker (s := s.removeSlot a) hy.worker
    · rw [AddressController.isCurrent, show (c.spentWorker a).address = a from rfl, hsl]
      simp [hs]
  have ha : system.step removed (.add a) = some again :=
    Rested.step_add ⟨h.idle, AddressController.lookup_removeSlot_self⟩
  refine ⟨again, ((h.reaches_spent.tail trivial hr).tail trivial hre).tail trivial
    ha, fun ho => ?_⟩
  have ht : again.controller.tasks = c.controller.tasks ++
      [c.spentWorker a, .spawn a s.nextGeneration, .spawn a removed.controller.nextGeneration] := by
    show (s.tasks ++ [.spawn a s.nextGeneration]) ++ [_] = _
    simp [s, tasks_spent]
  have hb := ho (n + 1) (n + 2) (.spawn a s.nextGeneration)
    (.spawn a removed.controller.nextGeneration) (by simp [ht, n]) (by simp [ht, n])
    rfl rfl rfl
  omega

theorem two_live_workers_at_last_generation :
    ∃ c, system.Reaches (start 10) c ∧ ¬ c.AtMostOneLive := by
  have hs : (start 10).Rested relay := ⟨⟨rfl, rfl⟩, rfl⟩
  obtain ⟨c, hre, hr, hn⟩ := hs.rounds (by decide) (2 ^ 64)
  have hl : c.controller.nextGeneration = 2 ^ 64 - 1 := by
    rw [hn]
    exact Nat.min_eq_right (by simp)
  obtain ⟨d, hd, ht⟩ := hr.two_live hl
  exact ⟨d, hre.trans hd, ht⟩

end ControllerCalls

end Runewarp.Client
