import Mathlib.Algebra.Group.Nat.Defs
import Runewarp.Client.AddressWorker
import Runewarp.Lib.Progress

/-!
# The Address controller of a Managed Client

The controller keeps a slot for each Server address it maintains.  A slot holds the
sending end of its worker's maintenance channel and the generation of the worker; the
completion of a worker counts only if its generation is the one of the slot.

`AddressController::run` selects, with this bias, on assignment applies, on worker
completions and on shutdown.  An apply is `replace_intent`: a loop over the slots that
retires, re-adopts or discards, and a loop over the assignment that spawns what is
missing.  Workers run on other threads, so their steps come between the steps of an
apply; only what the controller reads of a worker, whether it still holds its
receivers, can change under it, and only from yes to no.

The model has the `Managed` mode.  The state is the controller with the worker tasks
it has spawned, each under the number of its spawning.
-/

namespace Runewarp.Client

structure WorkerSlot where
  /-- The task at the other end of the maintenance channel. -/
  task : Nat
  generation : Nat
deriving DecidableEq

/-- Where `AddressController::run` stands. -/
inductive RunState where
  | selecting
  /-- First loop of `replace_intent`: slots still to visit, and the assignment. -/
  | revising (todo desired : List ServerAddress)
  /-- `re_adopt` found the worker live and is about to send Maintain. -/
  | reAdopting (address : ServerAddress) (todo desired : List ServerAddress)
  /-- Second loop of `replace_intent`: addresses still to visit, and the assignment. -/
  | adding (todo desired : List ServerAddress)
  /-- In `drain_workers_preserving`. -/
  | draining (firstError : Option String)
  | returned (result : Except String Unit)
deriving DecidableEq

structure AddressController where
  workers : HashMap ServerAddress WorkerSlot
  /-- Tasks whose completion has not been yielded. -/
  running : List Nat
  /-- Every task spawned so far. -/
  tasks : List AddressWorker
  shutdownRequested : Bool
  orderly : OrderlyShutdown
  nextGeneration : Nat
  sharedWorkerCount : Nat
  applyQueue : List (List ServerAddress)
  /-- The adapter still holds the sender of the apply channel. -/
  applyOpen : Bool
  run : RunState
  /-- Not in the source: the assignment of the last apply that was acknowledged. -/
  applied : List ServerAddress

namespace AddressController

/-- `for_managed`, with the graceful window, as `run` starts. -/
def start (gracefulShutdownDuration : Nat) : AddressController where
  workers := ∅
  running := []
  tasks := []
  shutdownRequested := false
  orderly := .new gracefulShutdownDuration
  nextGeneration := 1
  sharedWorkerCount := 0
  applyQueue := []
  applyOpen := true
  run := .selecting
  applied := []

/-! ## Slots -/

/-- The worker of the slot for `address`. -/
def slotWorker (s : AddressController) (address : ServerAddress) : Option AddressWorker :=
  (s.workers.lookup address).bind fun slot => s.tasks[slot.task]?

def maintenanceIntent (s : AddressController) (address : ServerAddress) :
    Option MaintenanceIntent :=
  (s.slotWorker address).map (·.intent)

def workerIsLive (s : AddressController) (address : ServerAddress) : Bool :=
  (s.slotWorker address).any (·.isLive)

/-- `workers.remove` with `decrement_shared_worker_count`; the counter wraps. -/
def removeSlot (s : AddressController) (address : ServerAddress) : AddressController :=
  { s with
    workers := s.workers.erase address
    sharedWorkerCount := (s.sharedWorkerCount + (2 ^ 64 - 1)) % 2 ^ 64 }

/-- `maintenance_tx.send` on the slot for `address`. -/
def sendIntent (s : AddressController) (address : ServerAddress) (intent : MaintenanceIntent) :
    AddressController :=
  { s with
    tasks := match s.workers.lookup address with
      | none => s.tasks
      | some slot => s.tasks.modify slot.task fun w => w.sendIntent intent }

def spawnWorker (s : AddressController) (address : ServerAddress) : AddressController :=
  { s with
    nextGeneration := min (s.nextGeneration + 1) (2 ^ 64 - 1)
    tasks := s.tasks ++ [.spawn address s.nextGeneration]
    running := s.running ++ [s.tasks.length]
    workers := s.workers.insert address ⟨s.tasks.length, s.nextGeneration⟩
    sharedWorkerCount := (s.sharedWorkerCount + 1) % 2 ^ 64 }

def add (s : AddressController) (address : ServerAddress) : AddressController :=
  if (s.workers.lookup address).isSome then
    if s.workerIsLive address then
      if s.maintenanceIntent address = some .maintain then s
      else s.sendIntent address .maintain
    else (s.removeSlot address).spawnWorker address
  else s.spawnWorker address

/-- `remove`: stop maintaining an address. -/
def remove (s : AddressController) (address : ServerAddress) : AddressController :=
  if s.workerIsLive address then s.sendIntent address .retire else s

/-! ## `replace_intent` -/

/-- One address of the first loop.  `re_adopt` looks at the worker here and sends in a
step of its own. -/
def visit (s : AddressController) (address : ServerAddress) (todo desired : List ServerAddress) :
    AddressController :=
  if address ∈ desired then
    if s.maintenanceIntent address = some .retire then
      if s.workerIsLive address then { s with run := .reAdopting address todo desired }
      else { s.removeSlot address with run := .revising todo desired }
    else { s with run := .revising todo desired }
  else if s.maintenanceIntent address = some .maintain then
    { s.remove address with run := .revising todo desired }
  else { s with run := .revising todo desired }

/-- One address of the second loop. -/
def addMissing (s : AddressController) (address : ServerAddress) : AddressController :=
  if (s.workers.lookup address).isSome && s.workerIsLive address then s else s.add address

/-! ## Completions and shutdown -/

def requestShutdown (s : AddressController) : AddressController :=
  { s with
    orderly := if s.orderly.mode.isNone then s.orderly.beginFast else s.orderly
    shutdownRequested := true }

/-- The completion of `w` counts. -/
def isCurrent (s : AddressController) (w : AddressWorker) : Bool :=
  (s.workers.lookup w.address).any (·.generation == w.generation)

/-- One completion yielded to `next_completion`, with what it returns for it: a stale
completion is dropped. -/
def completion (s : AddressController) (task : Nat) :
    Option (AddressController × Option (Except String Unit)) :=
  match s.tasks[task]? with
  | none => none
  | some w =>
    match w.phase with
    | .finished result =>
      if task ∈ s.running then
        let yielded := { s with running := s.running.erase task }
        if s.isCurrent w then some (yielded.removeSlot w.address, some result)
        else some (yielded, none)
      else none
    | _ => none

/-- A completion in the select of `run`. -/
def selected (s : AddressController) : Option (Except String Unit) → AddressController
  | some (.error error) => { s.requestShutdown with run := .draining (some error) }
  | some (.ok ()) | none => s

/-- A completion in `drain_workers_preserving`. -/
def drainedOne (s : AddressController) (firstError : Option String) :
    Option (Except String Unit) → AddressController
  | some (.error error) =>
    match firstError with
    | none => { s.requestShutdown with run := .draining (some error) }
    | some first => { s with run := .draining (some first) }
  | some (.ok ()) | none => s

/-- `first_error.map_or(Ok(()), Err)`. -/
def drainResult : Option String → Except String Unit
  | none => .ok ()
  | some error => .error error

/-! ## Steps -/

/-- What worker `task` sees of the controller. -/
def surroundings (s : AddressController) (task : Nat) (w : AddressWorker) :
    AddressWorker.Surroundings where
  shutdown := s.shutdownRequested
  orderlyStarted := s.orderly.mode.isSome
  senderDropped := !(s.workers.lookup w.address).any (·.task == task)

inductive Action where
  /-- The adapter sends an apply. -/
  | enqueue (addresses : List ServerAddress)
  /-- The adapter goes away. -/
  | closeApply
  /-- `AddressControllerShutdown::begin`, first half. -/
  | beginShutdown (mode : ShutdownMode)
  /-- `AddressControllerShutdown::begin`, second half: the flag is sent. -/
  | publishShutdown
  | worker (task : Nat) (event : AddressWorker.Event)
  /-- `run`: an apply is received. -/
  | receive
  /-- `run`: the apply channel is closed. -/
  | receiveClosed
  /-- First loop of `replace_intent`, in any order of the slots. -/
  | visit (address : ServerAddress)
  /-- The send of `re_adopt`. -/
  | reAdopt
  /-- The first loop is over. -/
  | beginAdding
  /-- Second loop of `replace_intent`. -/
  | addNext
  /-- The apply is acknowledged. -/
  | acknowledge
  /-- A finished task is yielded to `next_completion`. -/
  | reap (task : Nat)
  /-- `run`: the shutdown flag is seen. -/
  | shutdownSeen
  /-- No task is left to drain. -/
  | drained
deriving DecidableEq

def step (s : AddressController) : Action → Option AddressController
  | .enqueue addresses =>
    if s.applyOpen then some { s with applyQueue := s.applyQueue ++ [addresses] } else none
  | .closeApply => some { s with applyOpen := false }
  | .beginShutdown mode => some { s with orderly := s.orderly.enter mode }
  | .publishShutdown =>
    if s.orderly.mode.isSome then some { s with shutdownRequested := true } else none
  | .worker task event =>
    match s.tasks[task]? with
    | none => none
    | some w =>
      (w.step (s.surroundings task w) event).map fun w' =>
        { s with tasks := s.tasks.set task w' }
  | .receive =>
    match s.run, s.applyQueue with
    | .selecting, desired :: rest =>
      some { s with applyQueue := rest, run := .revising s.workers.keys desired }
    | _, _ => none
  | .receiveClosed =>
    if s.run = .selecting ∧ s.applyQueue = [] ∧ s.applyOpen = false then
      some { s.requestShutdown with run := .draining none }
    else none
  | .visit address =>
    match s.run with
    | .revising todo desired =>
      if address ∈ todo then some (s.visit address (todo.erase address) desired) else none
    | _ => none
  | .reAdopt =>
    match s.run with
    | .reAdopting address todo desired =>
      some { s.sendIntent address .maintain with run := .revising todo desired }
    | _ => none
  | .beginAdding =>
    match s.run with
    | .revising [] desired => some { s with run := .adding desired desired }
    | _ => none
  | .addNext =>
    match s.run with
    | .adding (address :: todo) desired =>
      some { s.addMissing address with run := .adding todo desired }
    | _ => none
  | .acknowledge =>
    match s.run with
    | .adding [] desired => some { s with run := .selecting, applied := desired }
    | _ => none
  | .reap task =>
    match s.run with
    | .selecting =>
      if s.applyQueue = [] ∧ s.applyOpen = true then
        (s.completion task).map fun c => c.1.selected c.2
      else none
    | .draining firstError => (s.completion task).map fun c => c.1.drainedOne firstError c.2
    | _ => none
  | .shutdownSeen =>
    if s.run = .selecting ∧ s.applyQueue = [] ∧ s.applyOpen = true ∧
        s.shutdownRequested = true then
      some { s with run := .draining none }
    else none
  | .drained =>
    match s.run with
    | .draining firstError =>
      if s.running = [] then some { s with run := .returned (drainResult firstError) }
      else none
    | _ => none

def system : Lts AddressController Action := ⟨step⟩

end AddressController

end Runewarp.Client
