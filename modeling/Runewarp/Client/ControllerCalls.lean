import Runewarp.Client.ControllerSteps

/-!
# Calls of the Address controller

A caller of the controller uses `add`, `remove`, `re_adopt`, `replace_intent` and
`next_completion` in any order.  It brings the workers itself, so nothing is known of
them: a worker may drop its control receivers at any time, whatever its intent says,
and its task may finish at any time after that.

A call has the controller for itself, but the workers run on.  A worker may drop its
receivers between two calls and in the middle of one: after `is_live` was read and
before the intent is sent, and between two addresses of `replace_intent`.  Each
completion that `next_completion` takes from the running tasks is a step, the stale
ones among them.
-/

namespace Runewarp.Client

/-- The controller and the call that is under way.  Inside `replace_intent`, the field
`run` of the controller says where. -/
structure ControllerCalls where
  controller : AddressController
  /-- `add`, `remove` or `re_adopt` has found the worker live and is about to send. -/
  sending : Option (ServerAddress × MaintenanceIntent)
  /-- Not in the source: tasks that have dropped their receivers since `replace_intent`
  was called last. -/
  exited : List Nat

/-- A step of `replace_intent` that has been called. -/
inductive Loop where
  /-- First loop, in any order of the slots. -/
  | visit (address : ServerAddress)
  /-- The send of `re_adopt`. -/
  | reAdopt
  /-- The first loop is over. -/
  | beginAdding
  /-- Second loop. -/
  | addNext
  | returns
deriving DecidableEq

/-- The same step when `run` applies an assignment. -/
def Loop.action : Loop → AddressController.Action
  | .visit address => .visit address
  | .reAdopt => .reAdopt
  | .beginAdding => .beginAdding
  | .addNext => .addNext
  | .returns => .acknowledge

inductive Call where
  | add (address : ServerAddress)
  | remove (address : ServerAddress)
  | reAdopt (address : ServerAddress)
  /-- The send of `add`, `remove` or `re_adopt`. -/
  | send
  | replaceIntent (desired : List ServerAddress)
  | loop (step : Loop)
  /-- A finished task is yielded to `next_completion`. -/
  | nextCompletion (task : Nat)
  /-- A worker drops its receivers. -/
  | exit (task : Nat) (result : Except String Unit)
  /-- The task of a worker ends. -/
  | finish (task : Nat)
deriving DecidableEq

/-- The call may come to `spawn_worker`. -/
def Call.maySpawn : Call → Bool
  | .add _ | .loop .addNext => true
  | _ => false

namespace ControllerCalls

def start (gracefulShutdownDuration : Nat) : ControllerCalls where
  controller := .start gracefulShutdownDuration
  sending := none
  exited := []

/-- No call is under way. -/
def Idle (c : ControllerCalls) : Prop := c.controller.run = .selecting ∧ c.sending = none

instance (c : ControllerCalls) : Decidable c.Idle := inferInstanceAs (Decidable (_ ∧ _))

def add (c : ControllerCalls) (address : ServerAddress) : ControllerCalls :=
  if (c.controller.workers.lookup address).isSome then
    if c.controller.workerIsLive address then
      if c.controller.maintenanceIntent address = some .maintain then c
      else { c with sending := some (address, .maintain) }
    else { c with controller := (c.controller.removeSlot address).spawnWorker address }
  else { c with controller := c.controller.spawnWorker address }

def remove (c : ControllerCalls) (address : ServerAddress) : ControllerCalls :=
  if c.controller.workerIsLive address then { c with sending := some (address, .retire) } else c

def reAdopt (c : ControllerCalls) (address : ServerAddress) : ControllerCalls :=
  if c.controller.workerIsLive address ∧ c.controller.maintenanceIntent address = some .retire then
    { c with sending := some (address, .maintain) }
  else c

/-- `replace_intent` is called: what its first loop will go through is fixed. -/
def replaceIntent (c : ControllerCalls) (desired : List ServerAddress) : ControllerCalls :=
  { c with
    controller :=
      { c.controller with run := .revising c.controller.workers.keys desired }
    exited := [] }

def setTask (c : ControllerCalls) (task : Nat) (w : AddressWorker) : ControllerCalls :=
  { c with controller := { c.controller with tasks := c.controller.tasks.set task w } }

def step (c : ControllerCalls) : Call → Option ControllerCalls
  | .add address => if c.Idle then some (c.add address) else none
  | .remove address => if c.Idle then some (c.remove address) else none
  | .reAdopt address => if c.Idle then some (c.reAdopt address) else none
  | .send =>
    c.sending.map fun (address, intent) =>
      { c with controller := c.controller.sendIntent address intent, sending := none }
  | .replaceIntent desired => if c.Idle then some (c.replaceIntent desired) else none
  | .loop l => (c.controller.step l.action).map fun s => { c with controller := s }
  | .nextCompletion task =>
    if c.Idle then
      (c.controller.completion task).map fun (s, _) => { c with controller := s }
    else none
  | .exit task result =>
    match c.controller.tasks[task]? with
    | some w =>
      if w.isLive then
        some { c.setTask task (w.goTo (.dropped result)) with exited := task :: c.exited }
      else none
    | none => none
  | .finish task =>
    match c.controller.tasks[task]? with
    | some w =>
      match w.phase with
      | .dropped result => some (c.setTask task (w.goTo (.finished result)))
      | _ => none
    | none => none

def system : Lts ControllerCalls Call := ⟨step⟩

/-! ## What a step can do -/

inductive Moves (c : ControllerCalls) : Call → ControllerCalls → Prop where
  /-- The call has nothing to do. -/
  | keeps : Moves c x c
  | announces : c.Idle → Moves c x { c with sending := some (a, intent) }
  | spawns : c.Idle → c.controller.workers.lookup a = none →
      Moves c (.add a) { c with controller := c.controller.spawnWorker a }
  | respawns : c.Idle → c.controller.workers.lookup a ≠ none →
      c.controller.workerIsLive a = false →
      Moves c (.add a) { c with controller := (c.controller.removeSlot a).spawnWorker a }
  | sends : c.sending = some (a, intent) →
      Moves c .send { c with controller := c.controller.sendIntent a intent, sending := none }
  | begins : c.Idle → Moves c (.replaceIntent desired) (c.replaceIntent desired)
  | proceeds : c.controller.Move l.action s → Moves c (.loop l) { c with controller := s }
  | yieldsStale : c.Idle → c.controller.Yields i w r → c.controller.isCurrent w = false →
      Moves c (.nextCompletion i)
        { c with controller := { c.controller with running := c.controller.running.erase i } }
  | yields : c.Idle → c.controller.Yields i w r → c.controller.isCurrent w = true →
      Moves c (.nextCompletion i) { c with controller := c.controller.yielded i w }
  | exits : c.controller.tasks[i]? = some w → w.isLive = true →
      Moves c (.exit i r)
        { c.setTask i (w.goTo (.dropped r)) with exited := i :: c.exited }
  | finishes : c.controller.tasks[i]? = some w → w.phase = .dropped r →
      Moves c (.finish i) (c.setTask i (w.goTo (.finished r)))

theorem moves_of_add {c : ControllerCalls} {a : ServerAddress} (hi : c.Idle) :
    Moves c (.add a) (c.add a) := by
  unfold add
  split
  next hs =>
    split
    next =>
      split
      next => exact .keeps
      next => exact .announces hi
    next hd => exact .respawns hi (Option.isSome_iff_ne_none.mp hs) (by simpa using hd)
  next hn => exact .spawns hi (by simpa using hn)

theorem moves_of_step {c d : ControllerCalls} {x : Call} (h : system.step c x = some d) :
    Moves c x d := by
  simp only [system] at h
  cases x with
  | add a =>
    obtain ⟨hi, rfl⟩ := Option.ite_some_none_eq_some.mp h
    exact moves_of_add hi
  | remove a =>
    obtain ⟨hi, rfl⟩ := Option.ite_some_none_eq_some.mp h
    unfold remove
    split
    next => exact .announces hi
    next => exact .keeps
  | reAdopt a =>
    obtain ⟨hi, rfl⟩ := Option.ite_some_none_eq_some.mp h
    unfold reAdopt
    split
    next => exact .announces hi
    next => exact .keeps
  | send =>
    obtain ⟨⟨a, intent⟩, hse, rfl⟩ := Option.map_eq_some_iff.mp h
    exact .sends hse
  | replaceIntent desired =>
    obtain ⟨hi, rfl⟩ := Option.ite_some_none_eq_some.mp h
    exact .begins hi
  | loop l =>
    obtain ⟨s, hs, rfl⟩ := Option.map_eq_some_iff.mp h
    exact .proceeds (AddressController.move_of_step hs)
  | nextCompletion i =>
    simp only [step, Option.ite_none_right_eq_some, Option.map_eq_some_iff] at h
    obtain ⟨hi, ⟨s, result⟩, hs, rfl⟩ := h
    obtain ⟨w, r, hy, ⟨hc, rfl, -⟩ | ⟨hst, rfl, -⟩⟩ :=
      AddressController.completion_cases hs
    · exact .yields hi hy hc
    · exact .yieldsStale hi hy hst
  | exit i r =>
    simp only [step] at h
    split at h
    next w hw =>
      obtain ⟨hl, rfl⟩ := Option.ite_some_none_eq_some.mp h
      exact .exits hw hl
    next => cases h
  | finish i =>
    simp only [step] at h
    split at h
    next w hw =>
      split at h
      next r hp =>
        cases h
        exact .finishes hw hp
      next => cases h
    next => cases h

end ControllerCalls

end Runewarp.Client
