import Mathlib.Data.Option.Basic

/-!
# The lease of a Visitor stream

A `TunnelStream` is two halves that share a `StreamLease`, which owns the resource of
the stream.  The halves drop on any two threads and in any order.  A drop of a half
goes through these points: it takes itself off the counter of the lease, and if it was
the last it calls `before_drop` of the resource; its transport handle is dropped; its
reference to the lease is dropped.  With the last reference the lease goes, and with
it the resource, in two steps: a resource has two things to give back, one after the
other.

What `before_drop` and the two steps do is up to the resource, so they are events
here, and the users of this module attach their effects to them.
-/

namespace Runewarp.Tunnel

/-- The halves of a `TunnelStream`. -/
inductive Half where
  | read
  | write
deriving DecidableEq

/-- How far the drop of a half has come. -/
inductive HalfPhase where
  | held
  /-- `dropping_half` found it to be the last: `before_drop` is to be called. -/
  | last
  /-- The transport handle is to be dropped. -/
  | transport
  /-- The reference to the lease is to be dropped. -/
  | lease
  | dropped
deriving DecidableEq

/-- How far the drop of the resource has come. -/
inductive ResourcePhase where
  | held
  /-- The lease is gone. -/
  | dropping
  /-- The first of the two things is given back. -/
  | half
  | released
deriving DecidableEq

structure StreamLease where
  read : HalfPhase := .held
  write : HalfPhase := .held
  /-- `halves`. -/
  halves : Nat := 2
  /-- The references to the lease. -/
  refs : Nat := 2
  resource : ResourcePhase := .held
deriving DecidableEq

inductive LeaseEvent where
  /-- The drop of a half begins: `dropping_half` up to the counter. -/
  | droppingHalf (half : Half)
  | beforeDrop (half : Half)
  | dropTransport (half : Half)
  | dropLease (half : Half)
  | releaseFirst
  | releaseSecond
deriving DecidableEq

namespace StreamLease

def phase (l : StreamLease) : Half → HalfPhase
  | .read => l.read
  | .write => l.write

def setPhase (l : StreamLease) : Half → HalfPhase → StreamLease
  | .read, p => { l with read := p }
  | .write, p => { l with write := p }

def step (l : StreamLease) : LeaseEvent → Option StreamLease
  | .droppingHalf half =>
    if l.phase half = .held then
      let next := if l.halves = 1 then .last else .transport
      some { l.setPhase half next with halves := l.halves - 1 }
    else none
  | .beforeDrop half =>
    if l.phase half = .last then some (l.setPhase half .transport) else none
  | .dropTransport half =>
    if l.phase half = .transport then some (l.setPhase half .lease) else none
  | .dropLease half =>
    if l.phase half = .lease then
      let resource := if l.refs = 1 then .dropping else l.resource
      some { l.setPhase half .dropped with refs := l.refs - 1, resource := resource }
    else none
  | .releaseFirst =>
    if l.resource = .dropping then some { l with resource := .half } else none
  | .releaseSecond =>
    if l.resource = .half then some { l with resource := .released } else none

/-- Both halves are dropped. -/
def Dropped (l : StreamLease) : Prop := l.read = .dropped ∧ l.write = .dropped

instance (l : StreamLease) : Decidable l.Dropped := inferInstanceAs (Decidable (_ ∧ _))

end StreamLease

/-! ## The counters -/

/-- What a half has on the counter of the lease. -/
def HalfPhase.counted : HalfPhase → Nat
  | .held => 1
  | .last | .transport | .lease | .dropped => 0

/-- What a half has on the references of the lease. -/
def HalfPhase.refers : HalfPhase → Nat
  | .held | .last | .transport | .lease => 1
  | .dropped => 0

/-- The first thing the resource gives back is still with it. -/
def ResourcePhase.first : ResourcePhase → Nat
  | .held | .dropping => 1
  | .half | .released => 0

/-- The second thing the resource gives back is still with it. -/
def ResourcePhase.second : ResourcePhase → Nat
  | .held | .dropping | .half => 1
  | .released => 0

namespace StreamLease

/-- `before_drop` is still to be called. -/
def Unlowered (l : StreamLease) : Prop :=
  l.halves ≠ 0 ∨ l.read = .last ∨ l.write = .last

instance (l : StreamLease) : Decidable l.Unlowered := inferInstanceAs (Decidable (_ ∨ _))

/-- What a lease has on a count of those that are not lowered. -/
def unlowered (l : StreamLease) : Nat := if l.Unlowered then 1 else 0

/-- What the counters say about the halves, and the halves about the resource. -/
structure Sound (l : StreamLease) : Prop where
  halves : l.halves = l.read.counted + l.write.counted
  refs : l.refs = l.read.refers + l.write.refers
  resource : l.resource = .held ↔ ¬ l.Dropped
  /-- One half only is the last, and the counter is at zero then. -/
  last : l.read = .last → l.halves = 0 ∧ l.write ≠ .last
  last' : l.write = .last → l.halves = 0

theorem sound_new : Sound {} := by
  constructor <;> simp [HalfPhase.counted, HalfPhase.refers, Dropped]

variable {l l' : StreamLease} {event : LeaseEvent}

theorem Sound.dropped (h : l.Sound) (hr : l.resource ≠ .held) : l.Dropped := by
  by_contra hd
  exact hr (h.resource.mpr hd)

/-- `before_drop` is called once: by the half that took the counter to zero. -/
theorem Sound.step_unlowered (h : l.Sound) (hs : l.step event = some l') :
    l'.Sound ∧ (l'.unlowered + if event matches .beforeDrop _ then 1 else 0) = l.unlowered := by
  obtain ⟨hh, hre, hr, hl, hl'⟩ := h
  rcases l with ⟨read, write, halves, refs, resource⟩
  cases event with
  | droppingHalf half | beforeDrop half | dropTransport half | dropLease half =>
    obtain ⟨hp, rfl⟩ := Option.ite_some_none_eq_some.mp hs
    -- One half is where the event finds it; the other may be anywhere.
    cases half with
    | read =>
      obtain rfl : read = _ := hp
      cases write <;> refine ⟨⟨?_, ?_, ?_, ?_, ?_⟩, ?_⟩ <;>
        simp_all [setPhase, HalfPhase.counted, HalfPhase.refers, Dropped, unlowered, Unlowered]
    | write =>
      obtain rfl : write = _ := hp
      cases read <;> refine ⟨⟨?_, ?_, ?_, ?_, ?_⟩, ?_⟩ <;>
        simp_all [setPhase, HalfPhase.counted, HalfPhase.refers, Dropped, unlowered, Unlowered]
  | _ =>
    obtain ⟨rfl, rfl⟩ := Option.ite_some_none_eq_some.mp hs
    refine ⟨?_, rfl⟩
    constructor <;> simp_all [Dropped]

theorem Sound.step (h : l.Sound) (hs : l.step event = some l') : l'.Sound :=
  (h.step_unlowered hs).1

/-- What the resource gives back is what the release events say. -/
theorem Sound.resource_step (h : l.Sound) (hs : l.step event = some l') :
    (l'.resource.first + if event = .releaseFirst then 1 else 0) = l.resource.first ∧
      (l'.resource.second + if event = .releaseSecond then 1 else 0) = l.resource.second := by
  cases event with
  | droppingHalf half | beforeDrop half | dropTransport half =>
    obtain ⟨-, rfl⟩ := Option.ite_some_none_eq_some.mp hs
    cases half <;> simp [setPhase]
  | dropLease half =>
    obtain ⟨hp, rfl⟩ := Option.ite_some_none_eq_some.mp hs
    -- A half that still refers to the lease keeps the resource.
    have hh : l.resource = .held := by
      refine h.resource.mpr fun hd => ?_
      cases half <;> simp [phase, hd.1, hd.2] at hp
    split <;> simp [hh, ResourcePhase.first, ResourcePhase.second]
  | _ =>
    obtain ⟨hp, rfl⟩ := Option.ite_some_none_eq_some.mp hs
    simp [hp, ResourcePhase.first, ResourcePhase.second]

end StreamLease

end Runewarp.Tunnel
