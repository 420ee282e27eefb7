import Runewarp.Lib.Lts
import Runewarp.Lib.Tally
import Runewarp.Lib.Watch

/-!
# Event subscriptions of a Tunnel connection

Each request for the events of a Tunnel connection has a task of its own that runs
`serve_events`.  It first counts itself in a watch channel and then subscribes to the same
channel, to learn of a later one.  The tasks run in parallel, so another one may count
itself in between; the older of the two then takes this count as seen and is not told.

When no handler starts between the start of another and its subscription, only the last
one goes on.
-/

namespace Runewarp.Tunnel

/-- What a handler writes as data. -/
inductive EventFrame (σ : Type) where
  | keepalive
  | snapshot (value : σ)
deriving DecidableEq

/-- Where a call of `serve_events` stands. -/
inductive ServePhase (σ : Type) where
  /-- It has counted itself. -/
  | subscribing
  /-- It has subscribed to the count. -/
  | subscribed
  /-- It has subscribed to the snapshots. -/
  | prepared
  /-- `send_response`, with the first snapshot at hand. -/
  | responding (initial : σ)
  /-- `send_data`. -/
  | writing (frame : EventFrame σ)
  | selecting
  /-- `snapshots` has changed and is to be read. -/
  | updating
  /-- `finish`. -/
  | finishing
  | ended
deriving DecidableEq

structure EventHandler (σ : Type) where
  phase : ServePhase σ := .subscribing
  /-- What `superseded` saw last. -/
  supersededSeen : Nat := 0
  /-- What `snapshots` saw last. -/
  snapshotsSeen : Nat := 0
deriving DecidableEq

inductive ServeEvent where
  /-- The next statement. -/
  | proceed
  /-- `bounded_write` returns. -/
  | written (completed : Bool)
  /-- The branches of the select. -/
  | tick
  | changed
  | superseded
  | goaway
  /-- The task is dropped with the driver. -/
  | abort
deriving DecidableEq

/-- What the handlers of a connection share, and the handlers in the order of their starts. -/
structure EventStreams (σ : Type) where
  subscriptions : Watch Nat := .new 0
  goaway : Bool := false
  events : Watch σ
  handlers : List (EventHandler σ) := []
deriving DecidableEq

variable {σ : Type}

namespace EventHandler

/-- The future is at an `await`. -/
def suspended (h : EventHandler σ) : Bool :=
  match h.phase with
  | .responding _ | .writing _ | .selecting | .finishing => true
  | _ => false

/-- A write is in progress. -/
def inWrite (h : EventHandler σ) : Bool :=
  match h.phase with
  | .responding _ | .writing _ | .finishing => true
  | _ => false

/-- One step of `serve_events` after its start. -/
def step (s : EventStreams σ) (h : EventHandler σ) (event : ServeEvent) :
    Option (EventHandler σ) :=
  match h.phase, event with
  | .subscribing, .proceed =>
    some { h with phase := .subscribed, supersededSeen := s.subscriptions.version }
  | .subscribed, .proceed =>
    some { h with phase := .prepared, snapshotsSeen := s.events.version }
  | .prepared, .proceed =>
    some { h with phase := .responding s.events.value, snapshotsSeen := s.events.version }
  | .responding initial, .written completed =>
    some { h with phase := if completed then .writing (.snapshot initial) else .ended }
  | .writing _, .written completed =>
    some { h with phase := if completed then .selecting else .ended }
  | .selecting, .tick => some { h with phase := .writing .keepalive }
  | .selecting, .changed =>
    match s.events.changed h.snapshotsSeen false with
    | .changed => some { h with phase := .updating, snapshotsSeen := s.events.version }
    | _ => none
  | .updating, .proceed =>
    some { h with
      phase := .writing (.snapshot s.events.value)
      snapshotsSeen := s.events.version }
  | .selecting, .superseded =>
    match s.subscriptions.changed h.supersededSeen false with
    | .changed => some { h with phase := .finishing, supersededSeen := s.subscriptions.version }
    | _ => none
  | .selecting, .goaway => if s.goaway then some { h with phase := .finishing } else none
  | .finishing, .written _ => some { h with phase := .ended }
  | _, .abort => if h.suspended then some { h with phase := .ended } else none
  | _, _ => none

end EventHandler

namespace EventStreams

inductive Action (σ : Type) where
  /-- `serve_events` is called and counts itself. -/
  | start
  | handler (i : Nat) (event : ServeEvent)
  /-- `set_replacement_generation`. -/
  | publish (value : σ)
  | sendGoaway
deriving DecidableEq

/-- No handler is between its start and its subscription. -/
def Subscribed (s : EventStreams σ) : Prop := ∀ h ∈ s.handlers, h.phase ≠ .subscribing

/-- No handler starts between the start of another and its subscription. -/
def StartsApart (s : EventStreams σ) (a : Action σ) : Prop := a = .start → s.Subscribed

/-- The handler has ended, or finds that it is superseded when it looks. -/
def Superseded (s : EventStreams σ) (h : EventHandler σ) : Prop :=
  h.phase = .ended ∨ s.subscriptions.changed h.supersededSeen false = .changed

variable [DecidableEq σ]

def step (s : EventStreams σ) : Action σ → Option (EventStreams σ)
  | .start =>
    some { s with
      subscriptions := s.subscriptions.modify (· + 1)
      handlers := s.handlers ++ [{}] }
  | .handler i event =>
    match s.handlers[i]? with
    | none => none
    | some h => (h.step s event).map fun h' => { s with handlers := s.handlers.set i h' }
  | .publish value => some { s with events := s.events.modifyIf value (value ≠ s.events.value) }
  | .sendGoaway => some { s with goaway := true }

def system : Lts (EventStreams σ) (Action σ) := ⟨step⟩

end EventStreams

/-! ## What a handler has seen -/

namespace EventHandler

/-- The handler has subscribed and has not found that it is superseded. -/
def listening (h : EventHandler σ) : Bool :=
  match h.phase with
  | .subscribing | .finishing | .ended => false
  | _ => true

/-- A handler subscribes once, to the count as it is then. -/
structure StepSpec (s : EventStreams σ) (h h' : EventHandler σ) : Prop where
  subscribes : h'.phase ≠ .subscribing
  seen : h'.listening = true →
    (h.listening = true ∧ h'.supersededSeen = h.supersededSeen) ∨
    (h.phase = .subscribing ∧ h'.supersededSeen = s.subscriptions.version)

theorem step_spec {s : EventStreams σ} {h h' : EventHandler σ} {event : ServeEvent}
    (hs : h.step s event = some h') : StepSpec s h h' := by
  unfold step at hs
  split at hs
  -- It subscribes to the count.
  next hp =>
    cases hs
    exact ⟨nofun, fun _ => .inr ⟨hp, rfl⟩⟩
  iterate 2
    next hp =>
      cases hs
      exact ⟨nofun, fun _ => .inl ⟨by rw [listening, hp], rfl⟩⟩
  -- The writes of the response and of a frame.
  iterate 2
    next completed hp =>
      cases hs
      cases completed with
      | false => exact ⟨nofun, nofun⟩
      | true => exact ⟨nofun, fun _ => .inl ⟨by rw [listening, hp], rfl⟩⟩
  next hp =>
    cases hs
    exact ⟨nofun, fun _ => .inl ⟨by rw [listening, hp], rfl⟩⟩
  next hp =>
    split at hs
    · cases hs
      exact ⟨nofun, fun _ => .inl ⟨by rw [listening, hp], rfl⟩⟩
    · cases hs
  next hp =>
    cases hs
    exact ⟨nofun, fun _ => .inl ⟨by rw [listening, hp], rfl⟩⟩
  -- The ends: superseded, GOAWAY, FIN, and the abort.
  next =>
    split at hs
    · cases hs
      exact ⟨nofun, nofun⟩
    · cases hs
  next =>
    split at hs
    · cases hs
      exact ⟨nofun, nofun⟩
    · cases hs
  next =>
    cases hs
    exact ⟨nofun, nofun⟩
  next =>
    split at hs
    · cases hs
      exact ⟨nofun, nofun⟩
    · cases hs
  next => cases hs

end EventHandler

namespace EventStreams

variable {s t : EventStreams σ}

/-- The count is the number of starts.  A handler that has not subscribed was the last to
start, and one that has subscribed has seen the starts up to its own. -/
structure Ordered (s : EventStreams σ) : Prop where
  version : s.subscriptions.version = s.handlers.length
  subscribing : ∀ i h, s.handlers[i]? = some h → h.phase = .subscribing →
    i + 1 = s.handlers.length
  seen : ∀ i h, s.handlers[i]? = some h → h.listening = true → h.supersededSeen = i + 1

theorem ordered_new (value : σ) : Ordered { events := .new value } := by
  refine ⟨rfl, ?_, ?_⟩ <;> simp

theorem Ordered.start (h : s.Ordered) (hs : s.Subscribed) :
    Ordered { s with
      subscriptions := s.subscriptions.modify (· + 1)
      handlers := s.handlers ++ [{}] } := by
  refine ⟨?_, ?_, ?_⟩
  · simp only [Watch.modify, h.version, List.length_append, List.length_singleton]
  · intro i e he hp
    rcases of_getElem?_concat he with he | ⟨rfl, -⟩
    · exact absurd hp (hs e (List.mem_of_getElem? he))
    · simp
  · intro i e he hl
    rcases of_getElem?_concat he with he | ⟨-, rfl⟩
    · exact h.seen i e he hl
    · cases hl

theorem Ordered.handler {i : Nat} {h h' : EventHandler σ} (hs : s.Ordered)
    (hi : s.handlers[i]? = some h) (hsp : EventHandler.StepSpec s h h') :
    Ordered { s with handlers := s.handlers.set i h' } := by
  refine ⟨by rw [List.length_set]; exact hs.version, ?_, ?_⟩
  · intro j e he hp
    rw [List.length_set]
    rcases of_getElem?_set he with ⟨-, rfl⟩ | he
    · exact absurd hp hsp.subscribes
    · exact hs.subscribing j e he hp
  · intro j e he hl
    rcases of_getElem?_set he with ⟨rfl, rfl⟩ | he
    · rcases hsp.seen hl with ⟨hb, hsa⟩ | ⟨hp, hse⟩
      · exact hsa.trans (hs.seen _ h hi hb)
      · rw [hse, hs.version, hs.subscribing _ h hi hp]
    · exact hs.seen j e he hl

variable [DecidableEq σ]

theorem Ordered.step {a : Action σ} (h : s.Ordered) (ha : StartsApart s a)
    (hs : system.step s a = some t) : t.Ordered := by
  cases a with
  | start =>
    cases hs
    exact h.start (ha rfl)
  | handler i event =>
    simp only [system, EventStreams.step] at hs
    split at hs
    next => cases hs
    next e he =>
      obtain ⟨e', hc, rfl⟩ := Option.map_eq_some_iff.mp hs
      exact h.handler he (EventHandler.step_spec hc)
  | _ =>
    cases hs
    exact ⟨h.version, h.subscribing, h.seen⟩

/-- When the handlers have started apart, and none of them is before its subscription or in a
write, then each but the one that started last is told that it is superseded. -/
theorem superseded_when_quiet {value : σ}
    (hrun : system.Steps StartsApart { events := .new value } s) (hs : s.Subscribed)
    (hq : ∀ h ∈ s.handlers, h.inWrite = false) :
    ∀ i h, s.handlers[i]? = some h → i + 1 ≠ s.handlers.length → s.Superseded h := by
  have ho : s.Ordered :=
    hrun.invariant (I := Ordered) (fun _ _ _ h ha hsp => h.step ha hsp)
      (ordered_new value)
  intro i h hi hla
  have hm := List.mem_of_getElem? hi
  have hl : h.phase = .ended ∨ h.listening = true := by
    have hst := hs h hm
    have hw := hq h hm
    unfold EventHandler.listening
    unfold EventHandler.inWrite at hw
    cases hp : h.phase with
    | subscribing => exact absurd hp hst
    | finishing =>
      rw [hp] at hw
      cases hw
    | ended => exact .inl rfl
    | _ => exact .inr rfl
  refine hl.imp_right fun hl => ?_
  have hse := ho.seen i h hi hl
  have hne : h.supersededSeen ≠ s.subscriptions.version := by
    rw [hse, ho.version]
    exact hla
  exact if_pos hne

/-- The statements of a handler from its subscription to the select. -/
def toSelect (σ : Type) (i : Nat) : List (Action σ) :=
  [.handler i .proceed, .handler i .proceed, .handler i .proceed, .handler i (.written true),
    .handler i (.written true)]

instance : DecidablePred fun s : EventStreams σ => s.Subscribed := fun s =>
  inferInstanceAs (Decidable (∀ h ∈ s.handlers, h.phase ≠ .subscribing))

instance (s : EventStreams σ) (a : Action σ) : Decidable (StartsApart s a) :=
  inferInstanceAs (Decidable (a = .start → s.Subscribed))

/-- One handler comes to its select before another starts. -/
theorem superseded_when_quiet_second :
    ∃ s : EventStreams Nat, s.handlers.map (·.phase) = [.selecting, .selecting] ∧
      ∀ h, s.handlers[0]? = some h → s.Superseded h := by
  have he : ∃ s ∈ system.execWhile StartsApart { events := .new 0 }
      (.start :: toSelect Nat 0 ++ .start :: toSelect Nat 1),
      s.handlers.map (·.phase) = [.selecting, .selecting] ∧ s.Subscribed ∧
      (∀ h ∈ s.handlers, h.inWrite = false) ∧ 0 + 1 ≠ s.handlers.length := by decide
  obtain ⟨s, hs, hp, hsu, hq, hl⟩ := he
  refine ⟨s, hp, fun h hi => ?_⟩
  exact superseded_when_quiet (.of_execWhile hs) hsu hq 0 h hi hl

/-- Two handlers count themselves before either of them subscribes: neither is told. -/
theorem not_superseded_when_interleaved :
    ∃ s ∈ system.exec ({ events := .new 0 } : EventStreams Nat)
        ([.start, .start] ++ toSelect Nat 0 ++ toSelect Nat 1),
      s.handlers.map (·.phase) = [.selecting, .selecting] ∧
      ∀ h ∈ s.handlers, s.subscriptions.changed h.supersededSeen false = .pending := by
  decide

end EventStreams

end Runewarp.Tunnel
