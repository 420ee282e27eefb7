import Runewarp.Lib.Lts
import Runewarp.Lib.Semaphore
import Runewarp.Lib.Tally
import Runewarp.Tunnel.StreamLease

/-!
# Visitor credit of a Client instance

The Visitor budget of a Client instance is one semaphore.  Each of its connections
keeps some permits idle, as stream credit it offers to the Server, and hands a permit
to each stream the Server assigns to it; the permit stays with the stream until both
halves are dropped.

The state of `VisitorCredits` is behind a mutex, and what a call does between taking
and releasing it is one step here, unless it gives permits back: other connections may
take these one by one while the mutex is held, so `release_idle` is a step for each
permit.  The last half of a stream to be dropped takes the mutex in `before_drop`,
which is a step after the one in which it finds that it is the last.

The calls come in any order: from the session task of a connection, from a withdrawal,
and from the end of either.
-/

namespace Runewarp.Tunnel

/-- The permit an acquisition has returned. -/
inductive Offer where
  | none
  /-- To be offered. -/
  | acquired
  /-- `offer` has not taken it: to be dropped. -/
  | refused
deriving DecidableEq

structure VisitorCredits where
  idle : Nat := 0
  held : Nat := 0
  maintaining : Bool := true
  closed : Bool := false
  /-- `release_idle` has the mutex and gives permits back. -/
  releasing : Bool := false
  /-- The last value given to `set_max_concurrent_bi_streams`; a connection starts
  with zero. -/
  limit : Nat := 0
  active : Nat := 0
  idleStopped : Bool := false
  offer : Offer := .none
  /-- The streams assigned so far, each with its `VisitorPermit`. -/
  leases : List StreamLease := []
deriving DecidableEq

namespace VisitorCredits

/-- `set_limit` sets `held`, zero and `held` again. -/
def setLimit (c : VisitorCredits) : VisitorCredits := { c with limit := c.held }

/-- `offer` takes the permit. -/
def keep (c : VisitorCredits) : VisitorCredits :=
  setLimit { c with idle := c.idle + 1, held := c.held + 1, offer := .none }

/-- The rest of `assign` with a permit at hand. -/
def lease (c : VisitorCredits) : VisitorCredits :=
  { c with active := c.active + 1, leases := c.leases ++ [{}] }

/-- `assign`, with the budget; `none` when it gives no permit. -/
def assign (c : VisitorCredits) (budget : Semaphore Nat) :
    Option (VisitorCredits × Semaphore Nat) :=
  if c.closed then none
  else if 0 < c.idle then some (lease { c with idle := c.idle - 1 }, budget)
  else
    match budget.tryAcquire with
    | some budget' => some ((setLimit { c with held := c.held + 1 }).lease, budget')
    | none => none

/-- `release_idle` up to where the idle permits are dropped. -/
def releaseIdle (c : VisitorCredits) : VisitorCredits :=
  setLimit { c with maintaining := false, held := c.held - c.idle, releasing := true }

/-- `before_drop`. -/
def lower (c : VisitorCredits) : VisitorCredits := setLimit { c with held := c.held - 1 }

inductive Event where
  /-- The pending acquisition is polled. -/
  | poll
  /-- The pending acquisition is dropped. -/
  | cancel
  | offer
  /-- The permit that was not taken is dropped. -/
  | dropRefused
  | assign
  | stopReplenishing
  | stopIdle
  | close
  /-- `release_idle` drops an idle permit. -/
  | dropIdle
  /-- `release_idle` ends. -/
  | idleReleased
  | stream (i : Nat) (event : LeaseEvent)
deriving DecidableEq

/-- One step on connection `self`, with the budget. -/
def step (self : Nat) (c : VisitorCredits) (budget : Semaphore Nat) :
    Event → Option (VisitorCredits × Semaphore Nat)
  | .poll =>
    if c.offer = .none then
      some ({ c with offer := if (budget.poll self).2 then .acquired else .none },
        (budget.poll self).1)
    else none
  | .cancel => some (c, budget.cancel self)
  | .offer =>
    if c.releasing = false ∧ c.offer = .acquired then
      some (if c.maintaining then c.keep else { c with offer := .refused }, budget)
    else none
  | .dropRefused =>
    if c.offer = .refused then some ({ c with offer := .none }, budget.release) else none
  | .assign =>
    if c.releasing = false then some ((c.assign budget).getD (c, budget)) else none
  | .stopReplenishing =>
    if c.releasing = false then
      some ({ c with maintaining := false, idleStopped := true }, budget)
    else none
  | .stopIdle => if c.releasing = false then some (c.releaseIdle, budget) else none
  | .close =>
    if c.releasing = false then some (releaseIdle { c with closed := true }, budget) else none
  | .dropIdle =>
    if c.releasing = true ∧ 0 < c.idle then
      some ({ c with idle := c.idle - 1 }, budget.release)
    else none
  | .idleReleased =>
    if c.releasing = true ∧ c.idle = 0 then
      some ({ c with releasing := false, idleStopped := true }, budget)
    else none
  | .stream i event =>
    match c.leases[i]? with
    | none => none
    | some l =>
      (l.step event).bind fun l' =>
        let c' := { c with leases := c.leases.set i l' }
        match event with
        | .beforeDrop _ => if c.releasing = false then some (c'.lower, budget) else none
        | .releaseFirst => some ({ c' with active := c.active - 1 }, budget)
        | .releaseSecond => some (c', budget.release)
        | _ => some (c', budget)

end VisitorCredits

/-- The connections of a Client instance. -/
structure ClientCredits where
  budget : Semaphore Nat
  connections : List VisitorCredits := []

namespace ClientCredits

def start (budget : Nat) : ClientCredits := { budget := { permits := budget } }

inductive Action where
  /-- A connection is established. -/
  | connect
  | on (i : Nat) (event : VisitorCredits.Event)
deriving DecidableEq

def step (s : ClientCredits) : Action → Option ClientCredits
  | .connect => some { s with connections := s.connections ++ [{}] }
  | .on i event =>
    match s.connections[i]? with
    | none => none
    | some c =>
      (c.step i s.budget event).map fun (c', budget) =>
        { budget := budget, connections := s.connections.set i c' }

def system : Lts ClientCredits Action := ⟨step⟩

end ClientCredits

end Runewarp.Tunnel
