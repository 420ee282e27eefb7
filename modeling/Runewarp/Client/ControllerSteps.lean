import Runewarp.Client.AddressController

/-!
# What the controller and its workers can do

`Move` is the inversion of the step function, and `Tracked` the bookkeeping every step
keeps: a slot is for a task that is still to be yielded, a worker that holds its
receivers is the worker of a slot, and no two tasks have a generation in common.  The
last is what the generation check of `next_completion` rests on; it needs that the
generation counter has not saturated.
-/

namespace Runewarp.Client.AddressController

/-! ## Steps -/

/-- A current completion is taken: the task is no longer awaited and its slot is
dropped. -/
def yielded (s : AddressController) (task : Nat) (w : AddressWorker) : AddressController :=
  removeSlot { s with running := s.running.erase task } w.address

/-- `w` is a finished task that is still awaited. -/
structure Yields (s : AddressController) (task : Nat) (w : AddressWorker)
    (r : Except String Unit) : Prop where
  worker : s.tasks[task]? = some w
  finished : w.phase = .finished r
  running : task ∈ s.running

/-- `run` is at a point where it awaits completions. -/
def Awaiting (s : AddressController) : Prop :=
  s.run = .selecting ∨ ∃ firstError, s.run = .draining firstError

inductive Move (s : AddressController) : Action → AddressController → Prop where
  | queues : Move s (.enqueue x) { s with applyQueue := q }
  | closes : Move s .closeApply { s with applyOpen := false }
  | begins : Move s (.beginShutdown m) { s with orderly := s.orderly.enter m }
  | publishes : s.orderly.mode ≠ none →
      Move s .publishShutdown { s with shutdownRequested := true }
  | works : s.tasks[i]? = some w → w.Step (s.surroundings i w) w' →
      Move s (.worker i e) { s with tasks := s.tasks.set i w' }
  | receives : s.run = .selecting → s.applyQueue = desired :: q →
      Move s .receive { s with applyQueue := q, run := .revising s.workers.keys desired }
  | receivesClosed : s.run = .selecting →
      Move s .receiveClosed { s.requestShutdown with run := .draining none }
  /-- The slot is as the assignment wants it, or its worker is gone and it is not
  wanted. -/
  | passes : s.run = .revising todo desired →
      (a ∈ desired → s.maintenanceIntent a ≠ some .retire) → a ∈ todo →
      (a ∉ desired → s.maintenanceIntent a = some .maintain → s.workerIsLive a = false) →
      Move s (.visit a) { s with run := .revising (todo.erase a) desired }
  | finds : s.run = .revising todo desired → a ∈ desired → s.workerIsLive a = true → a ∈ todo →
      Move s (.visit a) { s with run := .reAdopting a (todo.erase a) desired }
  | discards : s.run = .revising todo desired → a ∈ desired → s.slotWorker a = some w →
      w.isLive = false → a ∈ todo →
      Move s (.visit a) { s.removeSlot a with run := .revising (todo.erase a) desired }
  | retires : s.run = .revising todo desired → a ∉ desired → a ∈ todo →
      Move s (.visit a) { s.sendIntent a .retire with run := .revising (todo.erase a) desired }
  | reAdopts : s.run = .reAdopting a todo desired →
      Move s .reAdopt { s.sendIntent a .maintain with run := .revising todo desired }
  | beginsAdding : s.run = .revising [] desired →
      Move s .beginAdding { s with run := .adding desired desired }
  | skips : s.run = .adding (a :: todo) desired → s.slotWorker a = some w → w.isLive = true →
      Move s .addNext { s with run := .adding todo desired }
  | respawns : s.run = .adding (a :: todo) desired → s.workers.lookup a ≠ none →
      s.workerIsLive a = false →
      Move s .addNext { (s.removeSlot a).spawnWorker a with run := .adding todo desired }
  | spawns : s.run = .adding (a :: todo) desired → s.workers.lookup a = none →
      Move s .addNext { s.spawnWorker a with run := .adding todo desired }
  | acknowledges : s.run = .adding [] desired →
      Move s .acknowledge { s with run := .selecting, applied := desired }
  | yieldsStale : s.Yields i w r → s.isCurrent w = false → s.Awaiting →
      Move s (.reap i) { s with running := s.running.erase i }
  | yieldsOk : s.Yields i w (.ok ()) → s.isCurrent w = true → s.Awaiting →
      Move s (.reap i) (s.yielded i w)
  | yieldsError : s.Yields i w (.error error) → s.isCurrent w = true →
      s.run = .selecting ∨ s.run = .draining none →
      Move s (.reap i) { (s.yielded i w).requestShutdown with run := .draining (some error) }
  | yieldsLaterError : s.Yields i w (.error error) → s.isCurrent w = true →
      s.run = .draining (some first) →
      Move s (.reap i) { s.yielded i w with run := .draining (some first) }
  | seesShutdown : s.run = .selecting → s.shutdownRequested = true →
      Move s .shutdownSeen { s with run := .draining none }
  | returns : s.run = .draining firstError → s.running = [] →
      Move s .drained { s with run := .returned (drainResult firstError) }

variable {s t : AddressController} {a b : ServerAddress} {i j : Nat}
  {c : Option (Except String Unit)} {v : AddressWorker} {r : Except String Unit} {action : Action}

theorem slotWorker_of_maintenanceIntent {i : MaintenanceIntent}
    (h : s.maintenanceIntent a = some i) :
    ∃ w, s.slotWorker a = some w ∧ w.intent = i :=
  Option.map_eq_some_iff.mp h

theorem workerIsLive_iff :
    s.workerIsLive a = true ↔ ∃ w, s.slotWorker a = some w ∧ w.isLive = true := by
  cases h : s.slotWorker a <;> simp [workerIsLive, h]

theorem move_of_visit {todo desired : List ServerAddress} (hr : s.run = .revising todo desired)
    (ha : a ∈ todo) : Move s (.visit a) (s.visit a (todo.erase a) desired) := by
  unfold visit
  split
  next hd =>
    split
    next hre =>
      split
      next hl => exact .finds hr hd hl ha
      next hl =>
        obtain ⟨w, hw, -⟩ := slotWorker_of_maintenanceIntent hre
        exact .discards hr hd hw (by simpa [workerIsLive, hw] using hl) ha
    next hk => exact .passes hr (fun _ => hk) ha fun h => (h hd).elim
  next hd =>
    split
    next =>
      unfold remove
      split
      next => exact .retires hr hd ha
      next hde => exact .passes hr (fun h => (hd h).elim) ha fun _ _ => by simpa using hde
    next hi => exact .passes hr (fun h => (hd h).elim) ha fun _ h => (hi h).elim

theorem move_of_addMissing {todo desired : List ServerAddress}
    (hr : s.run = .adding (a :: todo) desired) :
    Move s .addNext { s.addMissing a with run := .adding todo desired } := by
  unfold addMissing add
  split
  next h =>
    obtain ⟨-, hli⟩ := by simpa using h
    obtain ⟨w, hw, hl⟩ := workerIsLive_iff.mp hli
    exact .skips hr hw hl
  next h =>
    split
    next hs =>
      have hd : s.workerIsLive a = false := by simpa [hs] using h
      rw [if_neg (by simp [hd])]
      exact .respawns hr (Option.isSome_iff_ne_none.mp hs) hd
    next hn => exact .spawns hr (by simpa using hn)

theorem completion_cases (h : s.completion i = some (t, c)) : ∃ w r, s.Yields i w r ∧
      (s.isCurrent w = true ∧ t = s.yielded i w ∧ c = some r ∨
        s.isCurrent w = false ∧ t = { s with running := s.running.erase i } ∧ c = none) := by
  unfold completion at h
  split at h
  next => cases h
  next w hw =>
    split at h
    next r hp =>
      obtain ⟨hr, h⟩ := Option.ite_none_right_eq_some.mp h
      refine ⟨w, r, ⟨hw, hp, hr⟩, ?_⟩
      split at h
      next hc =>
        cases h
        exact .inl ⟨hc, rfl, rfl⟩
      next hs =>
        cases h
        exact .inr ⟨by simpa using hs, rfl, rfl⟩
    next => cases h

theorem move_of_selected (hr : s.run = .selecting) (h : s.completion i = some (t, c)) :
    Move s (.reap i) (t.selected c) := by
  obtain ⟨w, r, hy, ⟨hc, rfl, rfl⟩ | ⟨hs, rfl, rfl⟩⟩ := completion_cases h
  · match r with
    | .ok () => exact .yieldsOk hy hc (.inl hr)
    | .error error => exact .yieldsError hy hc (.inl hr)
  · exact .yieldsStale hy hs (.inl hr)

theorem move_of_drainedOne {firstError : Option String} (hr : s.run = .draining firstError)
    (h : s.completion i = some (t, c)) : Move s (.reap i) (t.drainedOne firstError c) := by
  obtain ⟨w, r, hy, ⟨hc, rfl, rfl⟩ | ⟨hs, rfl, rfl⟩⟩ := completion_cases h
  · match r, firstError with
    | .ok (), _ => exact .yieldsOk hy hc (.inr ⟨_, hr⟩)
    | .error error, none => exact .yieldsError hy hc (.inr hr)
    | .error error, some first => exact .yieldsLaterError hy hc hr
  · exact .yieldsStale hy hs (.inr ⟨_, hr⟩)

theorem move_of_step {a : Action} (h : system.step s a = some t) : Move s a t := by
  simp only [system] at h
  cases a with
  | enqueue x =>
    obtain ⟨-, rfl⟩ := Option.ite_some_none_eq_some.mp h
    exact .queues
  | closeApply =>
    cases h
    exact .closes
  | beginShutdown m =>
    cases h
    exact .begins
  | publishShutdown =>
    obtain ⟨hm, rfl⟩ := Option.ite_some_none_eq_some.mp h
    exact .publishes (Option.isSome_iff_ne_none.mp hm)
  | worker i e =>
    simp only [step] at h
    split at h
    next => cases h
    next w hw =>
      obtain ⟨w', hst, rfl⟩ := Option.map_eq_some_iff.mp h
      exact .works hw (AddressWorker.step_of_eq hst)
  | receive =>
    simp only [step] at h
    split at h
    next hr hq =>
      cases h
      exact .receives hr hq
    next => cases h
  | receiveClosed =>
    obtain ⟨⟨hr, -, -⟩, rfl⟩ := Option.ite_some_none_eq_some.mp h
    exact .receivesClosed hr
  | visit a =>
    simp only [step] at h
    split at h
    next hr =>
      obtain ⟨ha, rfl⟩ := Option.ite_some_none_eq_some.mp h
      exact move_of_visit hr ha
    next => cases h
  | reAdopt =>
    simp only [step] at h
    split at h
    next hr =>
      cases h
      exact .reAdopts hr
    next => cases h
  | beginAdding =>
    simp only [step] at h
    split at h
    next hr =>
      cases h
      exact .beginsAdding hr
    next => cases h
  | addNext =>
    simp only [step] at h
    split at h
    next hr =>
      cases h
      exact move_of_addMissing hr
    next => cases h
  | acknowledge =>
    simp only [step] at h
    split at h
    next hr =>
      cases h
      exact .acknowledges hr
    next => cases h
  | reap i =>
    simp only [step] at h
    split at h
    next hr =>
      simp only [Option.ite_none_right_eq_some, Option.map_eq_some_iff] at h
      obtain ⟨-, ⟨t, c⟩, hc, rfl⟩ := h
      exact move_of_selected hr hc
    next hr =>
      obtain ⟨⟨t, c⟩, hc, rfl⟩ := Option.map_eq_some_iff.mp h
      exact move_of_drainedOne hr hc
    next => cases h
  | shutdownSeen =>
    obtain ⟨⟨hr, -, -, hs⟩, rfl⟩ := Option.ite_some_none_eq_some.mp h
    exact .seesShutdown hr hs
  | drained =>
    simp only [step] at h
    split at h
    next hr =>
      obtain ⟨hru, rfl⟩ := Option.ite_some_none_eq_some.mp h
      exact .returns hr hru
    next => cases h

/-! ## Bookkeeping -/

structure Tracked (s : AddressController) : Prop where
  slot : ∀ a slot, s.workers.lookup a = some slot → slot.task ∈ s.running ∧
    ∃ w, s.tasks[slot.task]? = some w ∧ w.address = a ∧ w.generation = slot.generation
  live : ∀ (i : Nat) (w : AddressWorker), s.tasks[i]? = some w → w.isLive = true →
    ∃ slot, s.workers.lookup w.address = some slot ∧ slot.task = i
  generation_lt : ∀ (i : Nat) (w : AddressWorker), s.tasks[i]? = some w →
    w.generation < s.nextGeneration
  generation_inj : ∀ (i j : Nat) (v w : AddressWorker), s.tasks[i]? = some v →
    s.tasks[j]? = some w →
    v.generation = w.generation → i = j
  running_lt : ∀ i ∈ s.running, i < s.tasks.length
  nodup : s.running.Nodup
  finished : ∀ (i : Nat) (w : AddressWorker), s.tasks[i]? = some w → i ∉ s.running →
    ∃ r, w.phase = .finished r

theorem tracked_start (duration : Nat) : (start duration).Tracked := by
  constructor <;> simp [start]

/-- The generation counter still has a value to give out. -/
def Unsaturated (s : AddressController) (a : Action) : Prop :=
  a = .addNext → s.nextGeneration < 2 ^ 64 - 1

instance (s : AddressController) (a : Action) : Decidable (s.Unsaturated a) :=
  inferInstanceAs (Decidable (_ → _))

variable {s t : AddressController} {w w' : AddressWorker} {a : ServerAddress} {i : Nat}

theorem getElem?_set_of_some {α : Type} {l : List α} {x y : α} (h : l[i]? = some x) :
    (l.set i y)[j]? = if i = j then some y else l[j]? := by
  have hi : i < l.length := (List.getElem?_eq_some_iff.mp h).1
  simp [List.getElem?_set, hi]

theorem Tracked.setTask (h : s.Tracked) (hw : s.tasks[i]? = some w)
    (had : w'.address = w.address) (hge : w'.generation = w.generation)
    (hli : w'.isLive = true → w.isLive = true)
    (hfi : ∀ r, w.phase = .finished r → ∃ r, w'.phase = .finished r) :
    ({ s with tasks := s.tasks.set i w' } : AddressController).Tracked := by
  have hs : ∀ (j : Nat) (v : AddressWorker), (s.tasks.set i w')[j]? = some v →
      ∃ u : AddressWorker, s.tasks[j]? = some u ∧ v.address = u.address ∧
        v.generation = u.generation ∧
        (v.isLive = true → u.isLive = true) ∧
        (∀ r, u.phase = .finished r → ∃ r, v.phase = .finished r) := by
    intro j v hv
    rw [getElem?_set_of_some hw] at hv
    split at hv
    next hij =>
      cases hv
      exact ⟨w, hij ▸ hw, had, hge, hli, hfi⟩
    next => exact ⟨v, hv, rfl, rfl, id, fun r hr => ⟨r, hr⟩⟩
  refine ⟨?_, ?_, ?_, ?_, ?_, h.nodup, ?_⟩
  · intro a slot hsl
    obtain ⟨hru, u, hu, ha, hg⟩ := h.slot a slot hsl
    refine ⟨hru, ?_⟩
    rw [getElem?_set_of_some hw]
    split
    next hij =>
      obtain rfl : w = u := by simpa [← hij, hw] using hu
      exact ⟨w', rfl, had.trans ha, hge.trans hg⟩
    next => exact ⟨u, hu, ha, hg⟩
  · intro j v hv hl
    obtain ⟨u, hu, ha, -, hlu, -⟩ := hs j v hv
    obtain ⟨slot, hsl, ht⟩ := h.live j u hu (hlu hl)
    exact ⟨slot, ha ▸ hsl, ht⟩
  · intro j v hv
    obtain ⟨u, hu, -, hg, -⟩ := hs j v hv
    exact hg ▸ h.generation_lt j u hu
  · intro j k v x hv hx hvx
    obtain ⟨u, hu, -, hg, -⟩ := hs j v hv
    obtain ⟨y, hy, -, hg', -⟩ := hs k x hx
    exact h.generation_inj j k u y hu hy (hg ▸ hg' ▸ hvx)
  · intro j hj
    simpa using h.running_lt j hj
  · intro j v hv hj
    obtain ⟨u, hu, -, -, -, hf⟩ := hs j v hv
    obtain ⟨r, hr⟩ := h.finished j u hu hj
    exact hf r hr

theorem Tracked.removeSlot (h : s.Tracked)
    (hd : ∀ w, s.slotWorker a = some w → w.isLive = false) : (s.removeSlot a).Tracked := by
  refine { h with slot := ?_, live := ?_ }
  · intro b slot hb
    rcases eq_or_ne b a with rfl | hba
    · simp [AddressController.removeSlot] at hb
    · exact h.slot b slot
        (by simpa [AddressController.removeSlot, AList.lookup_erase_ne hba] using hb)
  · intro j w hw hl
    obtain ⟨slot, hs, rfl⟩ := h.live j w hw hl
    have hwa : w.address ≠ a := by
      rintro rfl
      have : s.slotWorker w.address = some w := by
        simp [AddressController.slotWorker, hs, show s.tasks[slot.task]? = some w from hw]
      simp [hd w this] at hl
    exact ⟨slot, by simpa [AddressController.removeSlot, AList.lookup_erase_ne hwa] using hs,
      rfl⟩

theorem getElem?_spawn {l : List AddressWorker} {x : AddressWorker} (h : (l ++ [x])[j]? = some v) :
    l[j]? = some v ∨ j = l.length ∧ v = x := by
  rcases lt_trichotomy j l.length with hj | rfl | hj
  · exact .inl (by rwa [List.getElem?_append_left hj] at h)
  · exact .inr ⟨rfl, by simpa using h.symm⟩
  · rw [List.getElem?_eq_none (by simp; omega)] at h
    cases h

/-- A worker is spawned for an address without a slot. -/
theorem Tracked.spawnWorker (h : s.Tracked) (hno : s.workers.lookup a = none)
    (hsa : s.nextGeneration < 2 ^ 64 - 1) : (s.spawnWorker a).Tracked := by
  have hgr : ∀ (j : Nat) (v : AddressWorker), s.tasks[j]? = some v →
      (s.spawnWorker a).tasks[j]? = some v := by
    intro j v hv
    have hj := (List.getElem?_eq_some_iff.mp hv).1
    simpa [AddressController.spawnWorker, List.getElem?_append_left hj] using hv
  have hne : (s.spawnWorker a).tasks[s.tasks.length]? = some (.spawn a s.nextGeneration) := by
    simp [AddressController.spawnWorker]
  have hn : s.nextGeneration < (s.spawnWorker a).nextGeneration := by
    simp only [AddressController.spawnWorker]
    omega
  have hlo : ∀ b, b ≠ a → (s.spawnWorker a).workers.lookup b = s.workers.lookup b :=
    fun b hb => AList.lookup_insert_ne hb
  have hs : (s.spawnWorker a).workers.lookup a = some ⟨s.tasks.length, s.nextGeneration⟩ :=
    AList.lookup_insert _
  refine ⟨?_, ?_, ?_, ?_, ?_, ?_, ?_⟩
  · intro b slot hb
    rcases eq_or_ne b a with rfl | hba
    · cases hs.symm.trans hb
      exact ⟨by simp [AddressController.spawnWorker], _, hne, rfl, rfl⟩
    · rw [hlo b hba] at hb
      obtain ⟨hr, w, hw, ha, hg⟩ := h.slot b slot hb
      exact ⟨by simp [AddressController.spawnWorker, hr], w, hgr _ w hw, ha, hg⟩
  · intro j w hw hl
    rcases getElem?_spawn hw with hw | ⟨rfl, rfl⟩
    · obtain ⟨slot, hsl, rfl⟩ := h.live j w hw hl
      have hwa : w.address ≠ a := by
        rintro rfl
        simp [hsl] at hno
      exact ⟨slot, by rw [hlo _ hwa, hsl], rfl⟩
    · exact ⟨_, hs, rfl⟩
  · intro j w hw
    rcases getElem?_spawn hw with hw | ⟨rfl, rfl⟩
    · exact Nat.lt_trans (h.generation_lt j w hw) hn
    · exact hn
  · intro j k v w hv hw hvw
    rcases getElem?_spawn hv with hv | ⟨rfl, rfl⟩ <;> rcases getElem?_spawn hw with hw | ⟨rfl, rfl⟩
    · exact h.generation_inj j k v w hv hw hvw
    · exact absurd hvw (Nat.ne_of_lt (h.generation_lt j v hv))
    · exact absurd hvw.symm (Nat.ne_of_lt (h.generation_lt k w hw))
    · rfl
  · intro j hj
    simp only [AddressController.spawnWorker, List.mem_append, List.mem_singleton] at hj
    simp only [AddressController.spawnWorker, List.length_append, List.length_singleton]
    rcases hj with hj | rfl
    · have := h.running_lt j hj
      omega
    · omega
  · refine List.nodup_append.mpr ⟨h.nodup, by simp, ?_⟩
    intro j hj k hk
    have := h.running_lt j hj
    simp only [List.mem_singleton] at hk
    omega
  · intro j w hw hj
    simp only [AddressController.spawnWorker, List.mem_append, List.mem_singleton, not_or] at hj
    rcases getElem?_spawn hw with hw | ⟨rfl, rfl⟩
    · exact h.finished j w hw hj.1
    · exact (hj.2 rfl).elim

/-- The generation check picks out the slot's own worker. -/
theorem Tracked.slot_of_current (h : s.Tracked) (hw : s.tasks[i]? = some w)
    (hc : s.isCurrent w = true) :
    ∃ slot, s.workers.lookup w.address = some slot ∧ slot.task = i := by
  cases hs : s.workers.lookup w.address with
  | none => simp [isCurrent, hs] at hc
  | some slot =>
    obtain ⟨-, v, hv, -, hg⟩ := h.slot _ slot hs
    have hge : slot.generation = w.generation := by simpa [isCurrent, hs] using hc
    exact ⟨slot, rfl, h.generation_inj _ _ v w hv hw (hg.trans hge)⟩

/-- A task whose completion is stale is the worker of no slot. -/
theorem Tracked.task_ne_of_stale (h : s.Tracked) (hw : s.tasks[i]? = some w)
    (hc : s.isCurrent w = false) {slot : WorkerSlot} (hs : s.workers.lookup a = some slot) :
    slot.task ≠ i := by
  rintro rfl
  obtain ⟨-, v, hv, rfl, hg⟩ := h.slot a slot hs
  cases hw.symm.trans hv
  simp [isCurrent, hs, hg] at hc

/-- A finished task is no longer awaited; a slot it may have is dropped with it. -/
theorem Tracked.yield (h : s.Tracked) (hy : s.Yields i w r)
    {workers : HashMap ServerAddress WorkerSlot} {count : Nat}
    (hk : ∀ b slot, workers.lookup b = some slot →
      s.workers.lookup b = some slot ∧ slot.task ≠ i)
    (ha : ∀ b slot, s.workers.lookup b = some slot → slot.task ≠ i →
      workers.lookup b = some slot) : ({ s with
      running := s.running.erase i
      workers := workers
      sharedWorkerCount := count } : AddressController).Tracked := by
  refine { h with
    slot := ?_, live := ?_, running_lt := ?_, nodup := h.nodup.erase i, finished := ?_ }
  · intro b slot hb
    obtain ⟨hs, hne⟩ := hk b slot hb
    obtain ⟨hr, hre⟩ := h.slot b slot hs
    exact ⟨(List.mem_erase_of_ne hne).mpr hr, hre⟩
  · intro j v hv hl
    obtain ⟨slot, hs, rfl⟩ := h.live j v hv hl
    refine ⟨slot, ha _ slot hs ?_, rfl⟩
    rintro rfl
    cases hy.worker.symm.trans hv
    simp [AddressWorker.isLive, hy.finished, WorkerPhase.holdsReceivers] at hl
  · intro j hj
    exact h.running_lt j (List.mem_of_mem_erase hj)
  · intro j v hv hj
    rcases eq_or_ne j i with rfl | hji
    · cases hy.worker.symm.trans hv
      exact ⟨r, hy.finished⟩
    · exact h.finished j v hv fun hr => hj ((List.mem_erase_of_ne hji).mpr hr)

theorem Tracked.yielded (h : s.Tracked) (hy : s.Yields i w r) (hc : s.isCurrent w = true) :
    (s.yielded i w).Tracked := by
  obtain ⟨current, hcu, rfl⟩ := h.slot_of_current hy.worker hc
  refine h.yield hy ?_ ?_
  · intro b slot hb
    have hba : b ≠ w.address := by
      rintro rfl
      simp at hb
    rw [AList.lookup_erase_ne hba] at hb
    refine ⟨hb, fun ht => hba ?_⟩
    obtain ⟨-, v, hv, rfl, -⟩ := h.slot b slot hb
    rw [ht, hy.worker] at hv
    exact congrArg AddressWorker.address (Option.some.inj hv).symm
  · intro b slot hb hne
    have hba : b ≠ w.address := by
      rintro rfl
      exact hne (congrArg WorkerSlot.task (Option.some.inj (hb.symm.trans hcu)))
    rwa [AList.lookup_erase_ne hba]

theorem Tracked.yieldedStale (h : s.Tracked) (hy : s.Yields i w r) (hc : s.isCurrent w = false) :
    ({ s with running := s.running.erase i } : AddressController).Tracked :=
  h.yield hy (fun _ _ hb => ⟨hb, h.task_ne_of_stale hy.worker hc hb⟩) fun _ _ hb _ => hb

theorem isLive_sendIntent (w : AddressWorker) (intent : MaintenanceIntent) :
    (w.sendIntent intent).isLive = w.isLive := rfl

theorem intent_sendIntent (w : AddressWorker) (intent : MaintenanceIntent) :
    (w.sendIntent intent).intent = if w.isLive then intent else w.intent := by
  unfold AddressWorker.sendIntent AddressWorker.intent
  cases w.isLive <;> rfl

theorem sendIntent_eq (h : s.slotWorker a = some w) (intent : MaintenanceIntent) :
    ∃ slot, s.workers.lookup a = some slot ∧ s.tasks[slot.task]? = some w ∧
      s.sendIntent a intent =
        { s with tasks := s.tasks.set slot.task (w.sendIntent intent) } := by
  obtain ⟨slot, hs, hw⟩ := Option.bind_eq_some_iff.mp h
  exact ⟨slot, hs, hw, by
    simp [AddressController.sendIntent, hs, List.modify_eq_set_getElem?, hw]⟩

theorem sendIntent_eq_self (h : s.slotWorker a = none) (intent : MaintenanceIntent) :
    s.sendIntent a intent = s := by
  cases hs : s.workers.lookup a with
  | none => simp [AddressController.sendIntent, hs]
  | some slot =>
    simp only [AddressController.slotWorker, hs, Option.bind_some] at h
    simp [AddressController.sendIntent, hs, List.modify_eq_set_getElem?, h]

theorem Tracked.sendIntent (h : s.Tracked) (intent : MaintenanceIntent) :
    (s.sendIntent a intent).Tracked := by
  cases hw : s.slotWorker a with
  | none => rwa [sendIntent_eq_self hw]
  | some w =>
    obtain ⟨slot, -, ht, heq⟩ := sendIntent_eq hw intent
    rw [heq]
    exact h.setTask ht rfl rfl id fun r hr => ⟨r, hr⟩

theorem dead_of_workerIsLive (h : s.workerIsLive a = false) :
    ∀ w, s.slotWorker a = some w → w.isLive = false := by
  intro w hw
  simpa [workerIsLive, hw] using h

theorem lookup_removeSlot_self : (s.removeSlot a).workers.lookup a = none :=
  AList.lookup_erase _ _

theorem Tracked.move (h : s.Tracked) (hsa : s.Unsaturated action) (hm : Move s action t) :
    t.Tracked := by
  cases hm with
  | works hw hs =>
    refine h.setTask hw hs.address_eq hs.generation_eq hs.isLive_of_isLive ?_
    intro r hr
    exact (hs.not_finished hr).elim
  | discards _ _ hw hd =>
    have hre := h.removeSlot fun v hv => by
      cases hw.symm.trans hv
      exact hd
    exact { hre with }
  | retires => exact { h.sendIntent .retire with }
  | reAdopts => exact { h.sendIntent .maintain with }
  | respawns _ _ hd =>
    have hre := h.removeSlot (dead_of_workerIsLive hd)
    exact { hre.spawnWorker lookup_removeSlot_self (hsa rfl) with }
  | spawns _ hn => exact { h.spawnWorker hn (hsa rfl) with }
  | yieldsStale hy hc => exact h.yieldedStale hy hc
  | yieldsOk hy hc => exact h.yielded hy hc
  | yieldsError hy hc | yieldsLaterError hy hc => exact { h.yielded hy hc with }
  | _ => exact { h with }

/-! ## The workers of the slots -/

theorem slotWorker_removeSlot_self : (s.removeSlot a).slotWorker a = none := by
  simp [AddressController.slotWorker, lookup_removeSlot_self]

theorem slotWorker_removeSlot_ne (hb : b ≠ a) : (s.removeSlot a).slotWorker b = s.slotWorker b := by
  simp [AddressController.slotWorker, AddressController.removeSlot, AList.lookup_erase_ne hb]

/-- A slot that is left after a removal was there before, and is for another address. -/
theorem slotWorker_of_removeSlot (hv : (s.removeSlot a).slotWorker b = some v) :
    b ≠ a ∧ s.slotWorker b = some v := by
  rcases eq_or_ne b a with rfl | hb
  · simp [slotWorker_removeSlot_self] at hv
  · exact ⟨hb, slotWorker_removeSlot_ne hb ▸ hv⟩

theorem slotWorker_spawnWorker_self :
    (s.spawnWorker a).slotWorker a = some (.spawn a s.nextGeneration) := by
  simp [AddressController.slotWorker, AddressController.spawnWorker]

theorem Tracked.slotWorker_spawnWorker_ne (h : s.Tracked) (hb : b ≠ a) :
    (s.spawnWorker a).slotWorker b = s.slotWorker b := by
  simp only [AddressController.slotWorker, AddressController.spawnWorker,
    AList.lookup_insert_ne hb]
  cases hs : s.workers.lookup b with
  | none => rfl
  | some slot =>
    have hlt := h.running_lt _ (h.slot b slot hs).1
    simp [List.getElem?_append_left hlt]

theorem slotWorker_setTask (hw : s.tasks[i]? = some w)
    (hv : ({ s with tasks := s.tasks.set i w' } : AddressController).slotWorker a = some v) :
    s.slotWorker a = some v ∨ v = w' ∧ s.slotWorker a = some w ∧
      ∃ slot, s.workers.lookup a = some slot ∧ slot.task = i := by
  obtain ⟨slot, hs, ht⟩ := Option.bind_eq_some_iff.mp hv
  simp only [getElem?_set_of_some hw] at ht
  split at ht
  next hi =>
    cases ht
    exact .inr ⟨rfl, by simp [AddressController.slotWorker, hs, ← hi, hw], slot, hs, hi.symm⟩
  next => exact .inl (by simp [AddressController.slotWorker, hs, ht])

theorem maintenanceIntent_setTask (hw : s.tasks[i]? = some w) (hi : w'.intent = w.intent) :
    ({ s with tasks := s.tasks.set i w' } : AddressController).maintenanceIntent a =
      s.maintenanceIntent a := by
  simp only [maintenanceIntent, AddressController.slotWorker]
  cases hs : s.workers.lookup a with
  | none => rfl
  | some slot =>
    simp only [Option.bind_some, getElem?_set_of_some hw]
    split
    next h => simp [← h, hw, hi]
    next => rfl

/-- Slots of different addresses have different workers. -/
theorem Tracked.slotWorker_sendIntent_ne (h : s.Tracked) (hb : b ≠ a) (intent : MaintenanceIntent) :
    (s.sendIntent a intent).slotWorker b = s.slotWorker b := by
  cases hw : s.slotWorker a with
  | none => rw [sendIntent_eq_self hw]
  | some w =>
    obtain ⟨slot, hsl, ht, heq⟩ := sendIntent_eq hw intent
    rw [heq]
    simp only [AddressController.slotWorker]
    cases hs' : s.workers.lookup b with
    | none => rfl
    | some slot' =>
      have hne : slot.task ≠ slot'.task := by
        intro hs
        obtain ⟨-, u, hu, rfl, -⟩ := h.slot a slot hsl
        obtain ⟨-, v, hv, rfl, -⟩ := h.slot b slot' hs'
        rw [hs, hv] at hu
        exact hb (congrArg AddressWorker.address (Option.some.inj hu))
      simp [getElem?_set_of_some ht, hne]

theorem slotWorker_sendIntent_self (h : s.slotWorker a = some w) (intent : MaintenanceIntent) :
    (s.sendIntent a intent).slotWorker a = some (w.sendIntent intent) := by
  obtain ⟨slot, hs, ht, heq⟩ := sendIntent_eq h intent
  rw [heq]
  simp [AddressController.slotWorker, hs, getElem?_set_of_some ht]

theorem Tracked.slotWorker_of_sendIntent (h : s.Tracked) {intent : MaintenanceIntent}
    (hv : (s.sendIntent a intent).slotWorker b = some v) : b ≠ a ∧ s.slotWorker b = some v ∨
      b = a ∧ ∃ u, s.slotWorker a = some u ∧ v = u.sendIntent intent := by
  rcases eq_or_ne b a with rfl | hb
  · cases hu : s.slotWorker b with
    | none =>
      rw [sendIntent_eq_self hu, hu] at hv
      cases hv
    | some u =>
      rw [slotWorker_sendIntent_self hu] at hv
      exact .inr ⟨rfl, u, rfl, (Option.some.inj hv).symm⟩
  · exact .inl ⟨hb, h.slotWorker_sendIntent_ne hb intent ▸ hv⟩

/-! ## Tasks -/

/-- A task before and after a step: it has moved, or only its channel was written to. -/
def TaskStep (s : AddressController) (i : Nat) (u v : AddressWorker) : Prop :=
  v.phase = u.phase ∨ u.Step (s.surroundings i u) v

theorem TaskStep.failed {u : AddressWorker} (h : s.TaskStep i u v) (hf : u.Failed) : v.Failed := by
  rcases h with h | h
  · obtain ⟨e, he⟩ := hf
    exact ⟨e, by rw [h, he]⟩
  · exact h.failed_of_failed hf

theorem task_of_sendIntent {intent : MaintenanceIntent}
    (hv : (s.sendIntent a intent).tasks[j]? = some v) :
    ∃ u, s.tasks[j]? = some u ∧ v.phase = u.phase ∧ v.address = u.address := by
  cases hw : s.slotWorker a with
  | none =>
    rw [sendIntent_eq_self hw] at hv
    exact ⟨v, hv, rfl, rfl⟩
  | some w =>
    obtain ⟨slot, -, ht, heq⟩ := sendIntent_eq hw intent
    rw [heq] at hv
    simp only [getElem?_set_of_some ht] at hv
    split at hv
    next hj =>
      cases hv
      exact ⟨w, hj ▸ ht, rfl, rfl⟩
    next => exact ⟨v, hv, rfl, rfl⟩

theorem task_of_move (hm : Move s action t) (hv : t.tasks[j]? = some v) :
    (∃ u, s.tasks[j]? = some u ∧ s.TaskStep j u v) ∨ j = s.tasks.length ∧ v.phase = .spawned := by
  cases hm with
  | works hw hs =>
    simp only [getElem?_set_of_some hw] at hv
    split at hv
    next hj =>
      cases hv
      subst hj
      exact .inl ⟨_, hw, .inr hs⟩
    next => exact .inl ⟨v, hv, .inl rfl⟩
  | retires | reAdopts =>
    obtain ⟨u, hu, hp, -⟩ := task_of_sendIntent hv
    exact .inl ⟨u, hu, .inl hp⟩
  | respawns | spawns =>
    rcases getElem?_spawn hv with hv | ⟨rfl, rfl⟩
    · exact .inl ⟨v, hv, .inl rfl⟩
    · exact .inr ⟨rfl, rfl⟩
  | _ => exact .inl ⟨v, hv, .inl rfl⟩

theorem length_tasks_le_of_move (hm : Move s action t) : s.tasks.length ≤ t.tasks.length := by
  cases hm with
  | works => simp
  | retires | reAdopts =>
    simp only [AddressController.sendIntent]
    split <;> simp
  | respawns | spawns =>
    simp [AddressController.spawnWorker, AddressController.removeSlot]
  | _ => exact le_rfl

theorem task_kept_of_move (hm : Move s action t) {u : AddressWorker} (hu : s.tasks[j]? = some u) :
    ∃ v, t.tasks[j]? = some v ∧ s.TaskStep j u v := by
  have hj : j < s.tasks.length := (List.getElem?_eq_some_iff.mp hu).1
  have hjt : j < t.tasks.length := Nat.lt_of_lt_of_le hj (length_tasks_le_of_move hm)
  obtain ⟨v, hv⟩ : ∃ v, t.tasks[j]? = some v := ⟨_, List.getElem?_eq_getElem hjt⟩
  refine ⟨v, hv, ?_⟩
  rcases task_of_move hm hv with ⟨u', hu', hs⟩ | ⟨hn, -⟩
  · cases hu.symm.trans hu'
    exact hs
  · omega

theorem mode_ne_none_of_requestShutdown : s.requestShutdown.orderly.mode ≠ none := by
  simp only [requestShutdown]
  split
  next => simp
  next h => simpa using h

theorem mode_ne_none_of_move (hm : Move s action t) (h : s.orderly.mode ≠ none) :
    t.orderly.mode ≠ none := by
  cases hm with
  | begins => simp
  | receivesClosed | yieldsError => exact mode_ne_none_of_requestShutdown
  | _ => exact h

end Runewarp.Client.AddressController
