import Runewarp.ServerCertificate.Controller

/-!
# Route evidence

ACME is driven on evidence: the owner lock is held, the store was opened under it, the
route was observed to lead to a proof that was generated in the same activation, and
nobody has revoked that since.

A revocation is made of several steps.  `challenge_route_lost` sets the flag, clears the
state and gives a permit, and then returns; `activate` clears the flag before it posts a
proof, and reads it again before it installs what the observation is evidence for.  A
revocation that has set the flag when `activate` clears it is lost, and one that sets it
between the last read and the installation is overwritten.
-/

namespace Runewarp.ServerCertificate

namespace Controller

/-! ## What the evidence depends on -/

/-- The part of the controller that the evidence depends on. -/
structure Signals where
  hasOwner : Bool
  activation : Nat
  routeLost : Bool
  permit : Bool
  calls : List Call
  revocations : Nat

section

variable {κ : Type} {options : AcmeOptions κ} {c c' : Controller κ} {f f' : Signals}
  {place next : Drive κ} {answer : Answer κ} {since : Nat}

def signals (c : Controller κ) : Signals where
  hasOwner := c.hasOwner
  activation := c.activation
  routeLost := c.routeLost
  permit := c.permit
  calls := c.calls
  revocations := c.revocations

/-- No revocation is between its first step and its return. -/
def Quiet (f : Signals) : Prop := .revoking ∉ f.calls ∧ .returning ∉ f.calls

/-- While the flag is clear, nothing has been revoked. -/
def Fresh (f : Signals) (since : Nat) : Prop :=
  f.routeLost = false → Quiet f ∧ f.revocations = since

/-- No revocation has cleared the state. -/
structure Unrevoked (f : Signals) (since : Nat) : Prop where
  returning : .returning ∉ f.calls
  revocations : f.revocations = since

/-- The store and the proof are of the present activation. -/
structure Posted (f : Signals) (store : Nat) (proof : Proof κ) : Prop where
  owner : f.hasOwner = true
  store : store = f.activation
  proof : proof.activation = f.activation

structure Held (f : Signals) (o : Observation κ) : Prop where
  posted : Posted f o.store o.proof
  postedAt : Fresh f o.postedAt
  observeAt : Fresh f o.observeAt

/-- What the observer returned is what it was asked for. -/
structure Matches (o : Observation κ) (route : ConsumedRoute) : Prop where
  version : validVersion route.version = true
  fingerprint : route.fingerprint = o.proof.fingerprint

structure Driven (f : Signals) (e : Evidence κ) : Prop where
  held : Held f e.toObservation
  route : Matches e.toObservation e.route

/-- What holds where `drive` is. -/
def Gated (f : Signals) : Drive κ → Prop
  | .acquired | .opening => f.hasOwner = true
  | .importing store | .exporting store | .installing store _ | .keeping store | .proving store =>
    f.hasOwner = true ∧ store = f.activation
  | .posting store proof => Posted f store proof ∧ (f.routeLost = false → Quiet f)
  | .posted store proof postedAt => Posted f store proof ∧ Fresh f postedAt
  | .observing o | .checking o _ => Held f o
  | .starting o route => Held f o ∧ Matches o route
  | .selecting e _ => Driven f e ∧ (f.permit = true ∨ Unrevoked f e.postedAt)
  | .looping e _ | .notified e _ | .exportingFirst e _ | .recovering e _ _ | .installingFirst e _
  | .exportingRenewed e | .installingRenewed e _ | .renewed e => Driven f e
  | .top | .waiting | .acquiring | .failing _ _ | .renewalFailed | .ended | .sleeping => True

theorem Fresh.unrevoked (h : Fresh f since) (hf : f.routeLost = false) : Unrevoked f since :=
  ⟨(h hf).1.2, (h hf).2⟩

variable {snapshot : Snapshot κ} {e : Evidence κ} {index : Nat} {a : Action κ}

theorem install_eq (h : c.install options snapshot = some c') :
    c' = { c with state := { c.state with snapshot := some snapshot }, ready := true } := by
  unfold install at h
  split at h
  next =>
    cases h
    rfl
  next => cases h

theorem open_of_install (h : c.install options snapshot = some c') :
    c.state.maintenance = false := by
  obtain ⟨hv, -⟩ := Option.ite_none_right_eq_some.mp h
  simpa using (Bool.and_eq_true_iff.mp hv).2

/-- Nothing happens to the evidence. -/
structure Signals.Keeps (f f' : Signals) : Prop where
  owner : f'.hasOwner = f.hasOwner
  activation : f'.activation = f.activation
  fresh : ∀ since, Fresh f since → Fresh f' since

theorem Posted.keep {store : Nat} {proof : Proof κ} (h : Posted f store proof) (hk : f.Keeps f') :
    Posted f' store proof :=
  ⟨hk.owner.trans h.owner, h.store.trans hk.activation.symm, h.proof.trans hk.activation.symm⟩

theorem Held.keep {o : Observation κ} (h : Held f o) (hk : f.Keeps f') : Held f' o :=
  ⟨h.posted.keep hk, hk.fresh _ h.postedAt, hk.fresh _ h.observeAt⟩

theorem Driven.keep (h : Driven f e) (hk : f.Keeps f') : Driven f' e :=
  ⟨h.held.keep hk, h.route⟩

theorem Gated.keep (h : Gated f place) (hk : f.Keeps f')
    (hs : ∀ since, f.permit = true ∨ Unrevoked f since →
      f'.permit = true ∨ Unrevoked f' since) : Gated f' place := by
  cases place with
  | acquired | opening => exact hk.owner.trans h
  | importing | exporting | installing | keeping | proving =>
    exact ⟨hk.owner.trans h.1, h.2.trans hk.activation.symm⟩
  | posting store proof =>
    have hfr : Fresh f f.revocations := fun hf => ⟨h.2 hf, rfl⟩
    exact ⟨h.1.keep hk, fun hf => (hk.fresh _ hfr hf).1⟩
  | posted => exact ⟨h.1.keep hk, hk.fresh _ h.2⟩
  | observing | checking => exact Held.keep h hk
  | starting => exact ⟨h.1.keep hk, h.2⟩
  | selecting => exact ⟨h.1.keep hk, hs _ h.2⟩
  | top | waiting | acquiring | failing | renewalFailed | ended | sleeping => trivial
  | _ => exact Driven.keep h hk

/-! ## Steps of the task -/

/-- The places where ACME has begun to be driven. -/
def driven : Drive κ → Bool
  | .looping _ _ | .selecting _ _ | .notified _ _ | .exportingFirst _ _ | .recovering _ _ _
  | .installingFirst _ _ | .exportingRenewed _ | .installingRenewed _ _ | .renewed _
  | .failing _ _ | .renewalFailed | .ended => true
  | .top | .waiting | .acquiring | .acquired | .opening | .importing _ | .exporting _
  | .installing _ _ | .keeping _ | .proving _ | .posting _ _ | .posted _ _ _ | .observing _
  | .checking _ _ | .starting _ _ | .sleeping => false

/-- An observation of the route is under way, or what it gave is looked at. -/
def observes : Drive κ → Bool
  | .observing _ | .checking _ _ | .starting _ _ => true
  | .top | .waiting | .acquiring | .acquired | .opening | .importing _ | .exporting _
  | .installing _ _ | .keeping _ | .proving _ | .posting _ _ | .posted _ _ _ | .looping _ _
  | .selecting _ _ | .notified _ _ | .exportingFirst _ _ | .recovering _ _ _
  | .installingFirst _ _ | .exportingRenewed _ | .installingRenewed _ _ | .renewed _
  | .failing _ _ | .renewalFailed | .ended | .sleeping => false

/-- A CertCacheStore event is handled. -/
def handlesStored : Drive κ → Bool
  | .exportingFirst _ stored | .recovering _ stored _ => stored
  | .exportingRenewed _ | .installingRenewed _ _ | .renewed _ => true
  | .top | .waiting | .acquiring | .acquired | .opening | .importing _ | .exporting _
  | .installing _ _ | .keeping _ | .proving _ | .posting _ _ | .posted _ _ _ | .observing _
  | .checking _ _ | .starting _ _ | .looping _ _ | .selecting _ _ | .notified _ _
  | .installingFirst _ _ | .failing _ _ | .renewalFailed | .ended | .sleeping => false

/-- The evidence is not touched. -/
structure Moves (place next : Drive κ) : Prop where
  driven : driven place = true → driven next = true
  observes : observes next = false
  stored : handlesStored next = true →
    handlesStored place = true ∨ ∃ e phase, place = .selecting e phase
  gated : ∀ f, Gated f place → Gated f next

/-- What a step of `drive` does. -/
inductive DriveStep (options : AcmeOptions κ) (c : Controller κ) :
    Drive κ → Drive κ → Controller κ → Prop where
  | move {place next : Drive κ} (h : Moves place next) : DriveStep options c place next c
  | activate : DriveStep options c .top (if c.hasOwner then .opening else .acquiring)
      { c with activation := c.activation + 1 }
  | wake : DriveStep options c .waiting .top { c with permit := false }
  | acquire : DriveStep options c .acquiring .acquired
      { c with holder := .thisProcess, hasOwner := true }
  | own : DriveStep options c .acquired .opening { c with state := { c.state with owner := true } }
  | opened : DriveStep options c .opening (.importing c.activation) c
  | install {place next : Drive κ} {c' : Controller κ} (snapshot : Snapshot κ)
      (h : Moves place next)
      (hinstall : c.install options snapshot = some c') : DriveStep options c place next c'
  | keep (store : Nat) : DriveStep options c (.keeping store) (.proving store)
      { c with state := { c.state with store := some store } }
  | clear (store : Nat) (fingerprint : String) (key : κ) :
      DriveStep options c (.proving store) (.posting store ⟨fingerprint, key, c.activation⟩)
        { c with routeLost := false }
  | post (store : Nat) (proof : Proof κ) :
      DriveStep options c (.posting store proof) (.posted store proof c.revocations)
        { c with state := { c.state with challenge := some (.proof proof) } }
  | observe (store : Nat) (proof : Proof κ) (postedAt : Nat) :
      DriveStep options c (.posted store proof postedAt)
        (.observing ⟨store, proof, postedAt, c.revocations⟩) c
  | observed (o : Observation κ) (route : ConsumedRoute) :
      DriveStep options c (.observing o) (.checking o route)
        { c with observedAt := some o.observeAt }
  | check (o : Observation κ) (route : ConsumedRoute) (h : Matches o route) :
      DriveStep options c (.checking o route) (.starting o route) c
  | start (o : Observation κ) (route : ConsumedRoute) :
      DriveStep options c (.starting o route) (.looping ⟨o, route⟩ .acquisition)
        (c.startDriving route)
  | select (e : Evidence κ) (phase : Phase) (h : c.routeLost = false) :
      DriveStep options c (.looping e phase) (.selecting e phase) c
  | consume (e : Evidence κ) (phase : Phase) :
      DriveStep options c (.selecting e phase) (.notified e phase) { c with permit := false }
  | recover {place next : Drive κ} (h : Moves place next)
      (hends : handlesStored place = true ∨ ∃ e stored snapshot,
        place = .recovering e stored snapshot ∧
          c.state.failedRenewalFingerprint ≠ some snapshot.fingerprint) :
      DriveStep options c place next c.endRecovery
  | fail {place next : Drive κ} (reason : String) (h : Moves place next) :
      DriveStep options c place next (c.fail reason)
  | renewalFailed : DriveStep options c .renewalFailed .ended
      { c with state :=
        { c.state with failedRenewalFingerprint := c.state.snapshot.map Snapshot.fingerprint } }
  | deactivate : DriveStep options c .ended .sleeping c.deactivate

theorem DriveStep.running (hs : DriveStep options c place next c') : c'.running = c.running := by
  cases hs with
  | install _ _ hi => rw [install_eq hi]
  | _ => rfl

theorem DriveStep.maintenance (hs : DriveStep options c place next c') :
    c'.state.maintenance = c.state.maintenance := by
  cases hs with
  | install _ _ hi => rw [install_eq hi]
  | _ => rfl

theorem moves_afterEvent (e : Evidence κ) (phase : Phase) (event : Event) :
    Moves (.selecting e phase) (afterEvent e phase event) := by
  cases phase <;> cases event
  all_goals
    refine ⟨fun _ => rfl, rfl, fun _ => .inr ⟨_, _, rfl⟩, fun f h => ?_⟩
    first | exact h.1 | trivial

theorem driveStep_install {done stop : Drive κ}
    (hs : c.installThen options snapshot done stop = some (next, c')) (hd : Moves place done)
    (hst : Moves place stop) : DriveStep options c place next c' := by
  unfold installThen at hs
  split at hs
  next hi =>
    cases hs
    exact .install snapshot hd hi
  next =>
    cases hs
    exact .move hst

theorem driveStep_of_drive (hs : c.drive options place answer = some (next, c')) :
    DriveStep options c place next c' := by
  -- A place that the evidence does not reach.
  have hl : ∀ {place next : Drive κ}, (∀ f, Gated f next) →
      observes next = false ∧ handlesStored next = false →
      (driven place = true → driven next = true) → Moves place next :=
    fun hn hp hd => ⟨hd, hp.1, by simp [hp.2], fun f _ => hn f⟩
  unfold Controller.drive at hs
  split at hs
  -- The branches that only go on to such a place.
  all_goals try (cases hs; exact .move (hl (fun _ => trivial) ⟨rfl, rfl⟩ fun _ => rfl))
  all_goals try (cases hs; exact .move (hl (fun _ => trivial) ⟨rfl, rfl⟩ fun h => by cases h))
  next =>
    split at hs
    next =>
      cases hs
      exact .activate
    next =>
      cases hs
      exact .move (hl (fun _ => trivial) ⟨rfl, rfl⟩ nofun)
  next =>
    split at hs
    next =>
      cases hs
      exact .wake
    next => cases hs
  next =>
    split at hs
    next =>
      cases hs
      exact .move (hl (fun _ => trivial) ⟨rfl, rfl⟩ nofun)
    next => cases hs
  next =>
    split at hs
    next =>
      cases hs
      exact .acquire
    next => cases hs
  next =>
    cases hs
    exact .own
  next =>
    cases hs
    exact .opened
  next =>
    cases hs
    split
    next => exact .move ⟨nofun, rfl, nofun, fun _ h => h⟩
    next => exact .move (hl (fun _ => trivial) ⟨rfl, rfl⟩ nofun)
  iterate 2
    next =>
      cases hs
      exact .move ⟨nofun, rfl, nofun, fun _ h => h⟩
  next =>
    exact driveStep_install hs ⟨nofun, rfl, nofun, fun _ h => h⟩
      (hl (fun _ => trivial) ⟨rfl, rfl⟩ nofun)
  next =>
    cases hs
    exact .keep _
  next =>
    cases hs
    exact .clear _ _ _
  next =>
    cases hs
    exact .post _ _
  next =>
    cases hs
    exact .observe _ _ _
  next =>
    cases hs
    exact .observed _ _
  next =>
    split at hs
    next hok =>
      cases hs
      simp only [Bool.and_eq_true, decide_eq_true_eq] at hok
      exact .check _ _ ⟨hok.1.1, hok.1.2⟩
    next =>
      cases hs
      exact .move (hl (fun _ => trivial) ⟨rfl, rfl⟩ nofun)
  next =>
    cases hs
    exact .start _ _
  next =>
    cases hs
    split
    next => exact .move (hl (fun _ => trivial) ⟨rfl, rfl⟩ fun _ => rfl)
    next hf => exact .select _ _ (Bool.eq_false_iff.mpr hf)
  next =>
    split at hs
    next =>
      cases hs
      exact .consume _ _
    next => cases hs
  next =>
    split at hs
    next => cases hs
    next =>
      split at hs
      next =>
        cases hs
        exact .move ⟨fun _ => rfl, rfl, nofun, fun _ h => h⟩
      next =>
        cases hs
        exact .move (moves_afterEvent _ _ _)
  next =>
    cases hs
    split
    next => exact .move (hl (fun _ => trivial) ⟨rfl, rfl⟩ fun _ => rfl)
    next => exact .move ⟨fun _ => rfl, rfl, nofun, fun _ h => h⟩
  next =>
    cases hs
    exact .move ⟨fun _ => rfl, rfl, fun h => .inl h, fun _ h => h⟩
  next =>
    cases hs
    split
    next he =>
      refine .recover ⟨fun _ => rfl, rfl, nofun, fun _ h => h⟩ ?_
      simp only [Bool.or_eq_true, decide_eq_true_eq] at he
      exact he.imp_right fun ho => ⟨_, _, _, rfl, ho⟩
    next => exact .move ⟨fun _ => rfl, rfl, nofun, fun _ h => h⟩
  next =>
    exact driveStep_install hs ⟨fun _ => rfl, rfl, nofun, fun _ h => h⟩
      (hl (fun _ => trivial) ⟨rfl, rfl⟩ fun _ => rfl)
  next =>
    cases hs
    exact .move ⟨fun _ => rfl, rfl, fun _ => .inl rfl, fun _ h => h⟩
  next =>
    exact driveStep_install hs ⟨fun _ => rfl, rfl, fun _ => .inl rfl, fun _ h => h⟩
      (hl (fun _ => trivial) ⟨rfl, rfl⟩ fun _ => rfl)
  next =>
    cases hs
    exact .recover ⟨fun _ => rfl, rfl, nofun, fun _ h => h⟩ (.inl rfl)
  next =>
    cases hs
    split
    next => exact .fail _ (hl (fun _ => trivial) ⟨rfl, rfl⟩ fun _ => rfl)
    next => exact .fail _ (hl (fun _ => trivial) ⟨rfl, rfl⟩ fun _ => rfl)
  next =>
    cases hs
    exact .renewalFailed
  next =>
    cases hs
    exact .deactivate
  next => cases hs

/-- The evidence is kept, when the flag is cleared while no revocation is under way. -/
theorem Gated.drive (h : Gated c.signals place)
    (hc : ∀ store proof, place = .proving store → next = .posting store proof →
      Quiet c.signals)
    (hs : DriveStep options c place next c') : Gated c'.signals next := by
  cases hs with
  | move hm => exact hm.gated _ h
  | recover hm => exact hm.gated _ h
  | fail _ hm => exact hm.gated _ h
  | install _ hm hi =>
    rw [install_eq hi]
    exact hm.gated _ h
  | activate =>
    split
    next ho => exact ho
    next => trivial
  | acquire => rfl
  | own => exact h
  | opened => exact ⟨h, rfl⟩
  | keep => exact h
  | clear => exact ⟨⟨h.1, h.2, rfl⟩, fun _ => hc _ _ rfl rfl⟩
  | post => exact ⟨h.1, fun hf => ⟨h.2 hf, rfl⟩⟩
  | observe => exact ⟨h.1, h.2, fun hf => ⟨(h.2 hf).1, rfl⟩⟩
  | observed => exact h
  | check _ _ hma => exact ⟨h, hma⟩
  | start => exact ⟨h.1, h.2⟩
  | select _ _ hf => exact ⟨h, .inr (h.held.postedAt.unrevoked hf)⟩
  | consume => exact h.1.keep ⟨rfl, rfl, fun _ h => h⟩
  | _ => trivial

/-! ## Steps of the calls -/

theorem mem_remaining {calls : List Call} {next : Option Call} {x : Call}
    (hx : x ∈ remaining calls index next) : x ∈ calls ∨ next = some x := by
  cases next with
  | none => exact .inl (List.mem_of_mem_eraseIdx hx)
  | some next =>
    rcases List.mem_or_eq_of_mem_set hx with hx | rfl
    · exact .inl hx
    · exact .inr rfl

theorem Quiet.remaining (h : Quiet f) (next : Option Call)
    (hc : f'.calls = remaining f.calls index next) (hre : next ≠ some .revoking)
    (hr : next ≠ some .returning) : Quiet f' := by
  refine ⟨fun hx => ?_, fun hx => ?_⟩
  · rw [hc] at hx
    exact (mem_remaining hx).elim h.1 hre
  · rw [hc] at hx
    exact (mem_remaining hx).elim h.2 hr

theorem Unrevoked.remaining (h : Unrevoked f since) (next : Option Call)
    (hc : f'.calls = remaining f.calls index next) (hr : f'.revocations = f.revocations)
    (hre : next ≠ some .returning) : Unrevoked f' since := by
  refine ⟨fun hx => ?_, hr.trans h.revocations⟩
  rw [hc] at hx
  exact (mem_remaining hx).elim h.returning hre

theorem callStep_requesting : ∃ started, c.callStep .requesting =
    ({ c with state := { c.state with recoveryStarted := started } }, some .storing) := by
  simp only [callStep]
  split
  next => exact ⟨_, rfl⟩
  next => exact ⟨c.state.recoveryStarted, rfl⟩

/-- What no call touches. -/
structure CallFrame (c c' : Controller κ) : Prop where
  task : c'.task = c.task
  running : c'.running = c.running
  hasOwner : c'.hasOwner = c.hasOwner
  holder : c'.holder = c.holder
  observedAt : c'.observedAt = c.observedAt
  revocations : c.revocations ≤ c'.revocations

theorem callFrame (call : Call) : CallFrame c (c.callStep call).1 := by
  cases call with
  | requesting =>
    obtain ⟨started, hs⟩ := callStep_requesting (c := c)
    rw [hs]
    exact ⟨rfl, rfl, rfl, rfl, rfl, Nat.le_refl _⟩
  | returning => exact ⟨rfl, rfl, rfl, rfl, rfl, Nat.le_succ _⟩
  | _ => exact ⟨rfl, rfl, rfl, rfl, rfl, Nat.le_refl _⟩

theorem Gated.call {call : Call} (h : Gated c.signals place) (hc : c.calls[index]? = some call) :
    Gated (signals { (c.callStep call).1 with
      calls := remaining c.calls index (c.callStep call).2 })
      place := by
  have hm : call ∈ c.signals.calls := List.mem_of_getElem? hc
  cases call with
  | requesting =>
    obtain ⟨started, hst⟩ := callStep_requesting (c := c)
    rw [hst]
    refine h.keep ⟨rfl, rfl, fun since hf hfl => ?_⟩ fun since hs => ?_
    · exact ⟨(hf hfl).1.remaining (some .storing) rfl nofun nofun, (hf hfl).2⟩
    · exact hs.imp_right fun hu => hu.remaining (some .storing) rfl rfl nofun
  | storing =>
    refine h.keep ⟨rfl, rfl, fun since hf hfl => ?_⟩ fun since hs => ?_
    · exact ⟨(hf hfl).1.remaining (some .notifying) rfl nofun nofun, (hf hfl).2⟩
    · exact hs.imp_right fun hu => hu.remaining (some .notifying) rfl rfl nofun
  | notifying =>
    refine h.keep ⟨rfl, rfl, fun since hf hfl => ?_⟩ fun _ _ => .inl rfl
    exact ⟨(hf hfl).1.remaining none rfl nofun nofun, (hf hfl).2⟩
  | losing =>
    refine h.keep ⟨rfl, rfl, fun _ _ => nofun⟩ fun since hs => ?_
    exact hs.imp_right fun hu => hu.remaining (some .revoking) rfl rfl nofun
  | revoking =>
    -- The flag is set, so there is nothing to keep but the permit.
    refine h.keep ⟨rfl, rfl, fun since hf hfl => ?_⟩ fun _ _ => .inl rfl
    exact absurd hm (hf hfl).1.1
  | returning =>
    refine h.keep ⟨rfl, rfl, fun since hf hfl => ?_⟩ fun since hs => ?_
    · exact absurd hm (hf hfl).1.2
    · exact hs.imp_right fun hu => absurd hm hu.returning

theorem Gated.begin {call : Call} (h : Gated c.signals place) (hrv : call ≠ .revoking)
    (hr : call ≠ .returning) :
    Gated (signals { c with calls := c.calls ++ [call] }) place := by
  have hm : ∀ x, x ≠ call → x ∉ c.signals.calls → x ∉ c.calls ++ [call] := by
    intro x hne hx hm
    rcases List.mem_append.mp hm with hm | hm
    · exact hx hm
    · exact hne (List.mem_singleton.mp hm)
  refine h.keep ⟨rfl, rfl, fun since hf hfl => ?_⟩ fun since hs => ?_
  · obtain ⟨hq, hre⟩ := hf hfl
    exact ⟨⟨hm _ hrv.symm hq.1, hm _ hr.symm hq.2⟩, hre⟩
  · exact hs.imp_right fun hu => ⟨hm _ hr.symm hu.returning, hu.revocations⟩

/-! ## Steps of the controller -/

/-- What a step of the controller does. -/
inductive StepSpec (options : AcmeOptions κ) (c : Controller κ) :
    Action κ → Controller κ → Prop where
  | same (a : Action κ) : StepSpec options c a c
  | run (h : c.running = false) :
      StepSpec options c .run { c with running := true, task := .running .top .asleep }
  | drive {place next : Drive κ} {answer : Answer κ} {c' : Controller κ}
      (htask : c.task = .running place .asleep)
      (hdrive : c.drive options place answer = some (next, c')) :
      StepSpec options c (.drive answer) { c' with task := .running next .asleep }
  | watch {place : Drive κ} {before : Watchdog} (htask : c.task = .running place before)
      (ready : Bool) (after : Watchdog) :
      StepSpec options c .watch { c with ready := ready, task := .running place after }
  | maintain {place : Drive κ} {reason : String}
      (htask : c.task = .running place (.maintaining reason)) :
      StepSpec options c .watch { c.maintain reason with task := .dropping }
  | cancel {place : Drive κ} (htask : c.task = .running place .asleep)
      (hawaits : place.awaits = true) : StepSpec options c .cancel { c with task := .dropping }
  | dropRunning (htask : c.task = .dropping) : StepSpec options c .dropRunning c.dropRunning
  | begin (a : Action κ) {call : Call} (hrevoking : call ≠ .revoking)
      (hreturning : call ≠ .returning) :
      StepSpec options c a { c with calls := c.calls ++ [call] }
  | call {index : Nat} {call : Call} (hcall : c.calls[index]? = some call) :
      StepSpec options c (.call index)
        { (c.callStep call).1 with calls := remaining c.calls index (c.callStep call).2 }
  | install (snapshot : Snapshot κ) (hopen : c.state.maintenance = false) :
      StepSpec options c (.installSnapshot snapshot)
        { c with state := { c.state with snapshot := some snapshot }, ready := true }
  | lock (a : Action κ) {holder : Holder} (hbefore : c.holder ≠ .thisProcess) :
      StepSpec options c a { c with holder := holder }
  | time (a : Action κ) (instant : Nat) (now : Int) :
      StepSpec options c a { c with instant := instant, now := now }

theorem stepSpec_watch {place : Drive κ} {watchdog : Watchdog}
    (ht : c.task = .running place watchdog) (hs : c.watch options place watchdog = some c') :
    StepSpec options c .watch c' := by
  cases watchdog with
  | asleep =>
    simp only [Controller.watch] at hs
    split at hs
    next =>
      cases hs
      exact .watch ht c.ready _
    next => cases hs
  | checked serving =>
    cases hs
    exact .watch ht serving _
  | reading =>
    cases hs
    exact .watch ht c.ready _
  | maintaining reason =>
    cases hs
    exact .maintain ht

theorem stepSpec_of_step (hs : c.step options a = some c') : StepSpec options c a c' := by
  cases a with
  | run =>
    simp only [Controller.step] at hs
    split at hs
    next =>
      cases hs
      exact .same _
    next hr =>
      cases hs
      exact .run (Bool.eq_false_iff.mpr hr)
  | drive answer =>
    simp only [Controller.step] at hs
    split at hs
    next place ht =>
      obtain ⟨⟨next, c''⟩, hd, rfl⟩ := Option.map_eq_some_iff.mp hs
      exact .drive ht hd
    next => cases hs
  | watch =>
    simp only [Controller.step] at hs
    split at hs
    next ht => exact stepSpec_watch ht hs
    next => cases hs
  | cancel =>
    simp only [Controller.step] at hs
    split at hs
    next ht =>
      split at hs
      next ha =>
        cases hs
        exact .cancel ht ha
      next => cases hs
    next => cases hs
  | dropRunning =>
    simp only [Controller.step] at hs
    split at hs
    next ht =>
      cases hs
      exact .dropRunning ht
    next => cases hs
  | call index =>
    simp only [Controller.step] at hs
    split at hs
    next hc =>
      cases hs
      exact .call hc
    next => cases hs
  | installSnapshot snapshot =>
    cases hs
    cases hi : c.install options snapshot with
    | none => exact .same _
    | some c' =>
      rw [install_eq hi]
      exact .install snapshot (open_of_install hi)
  | exportSnapshot =>
    cases hs
    exact .same _
  | otherAcquires | otherExits =>
    simp only [Controller.step] at hs
    split at hs
    next hh =>
      cases hs
      exact .lock _ (by simp [hh])
    next => cases hs
  | tick duration =>
    cases hs
    exact .time _ _ c.now
  | setClock now =>
    cases hs
    exact .time _ c.instant now
  | _ =>
    cases hs
    exact .begin _ nofun nofun

/-! ## Runs -/

/-- `activate` clears the flag of a revocation that is under way. -/
def clearsRevocation (c : Controller κ) : Action κ → Bool
  | .drive (.proved (some _)) =>
    match c.task with
    | .running (.proving _) .asleep => c.calls.contains .revoking || c.calls.contains .returning
    | _ => false
  | _ => false

structure Sound (c : Controller κ) : Prop where
  lock : c.hasOwner = true → c.holder = .thisProcess
  gated : ∀ place watchdog, c.task = .running place watchdog → Gated c.signals place

theorem sound_start (read : Option (Option (Snapshot κ))) (instant : Nat) (now : Int) :
    Sound (start options read instant now) :=
  ⟨nofun, fun _ _ ht => by cases ht⟩

theorem Sound.drive (h : Sound c) (hg : Gated c.signals place)
    (hc : ∀ store proof, place = .proving store → next = .posting store proof →
      Quiet c.signals)
    (hs : DriveStep options c place next c') :
    Sound { c' with task := .running next .asleep } := by
  have hn : Gated c'.signals next := hg.drive hc hs
  refine ⟨?_, ?_⟩
  · have hl := h.lock
    cases hs with
    | acquire => exact fun _ => rfl
    | install _ _ hi =>
      rw [install_eq hi]
      exact hl
    | _ => exact hl
  · rintro _ _ ⟨⟩
    exact hn

/-- The flag is not cleared while a revocation is under way. -/
theorem quiet_of_clears {store : Nat} {proof : Proof κ}
    (ht : c.task = .running (.proving store) .asleep)
    (hok : c.clearsRevocation (.drive answer) = false)
    (hs : c.drive options (.proving store) answer = some (.posting store proof, c')) :
    Quiet c.signals := by
  cases answer with
  | proved certificate =>
    cases certificate with
    | none => cases hs
    | some certificate =>
      simp only [clearsRevocation, ht, Bool.or_eq_false_iff, List.contains_eq_mem,
        decide_eq_false_iff_not] at hok
      exact hok
  | _ => cases hs

theorem Sound.step (h : Sound c) (hok : c.clearsRevocation a = false)
    (hs : c.step options a = some c') : Sound c' := by
  cases stepSpec_of_step hs with
  | same => exact h
  | run =>
    refine ⟨h.lock, ?_⟩
    rintro _ _ ⟨⟩
    trivial
  | drive ht hd =>
    refine h.drive (h.gated _ _ ht) ?_ (driveStep_of_drive hd)
    rintro store proof rfl rfl
    exact quiet_of_clears ht hok hd
  | watch ht =>
    refine ⟨h.lock, ?_⟩
    rintro _ _ ⟨⟩
    exact h.gated _ _ ht
  | begin _ hre hr =>
    exact ⟨h.lock, fun place watchdog ht =>
      (h.gated place watchdog ht).begin hre hr⟩
  | @call _ call hc =>
    have hf : CallFrame c (c.callStep call).1 := callFrame call
    refine ⟨fun h' => hf.holder.trans (h.lock (hf.hasOwner.symm.trans h')), ?_⟩
    exact fun place watchdog hp =>
      (h.gated place watchdog (hf.task.symm.trans hp)).call hc
  | install | time => exact ⟨h.lock, h.gated⟩
  | lock _ hb => exact ⟨fun ho => (hb (h.lock ho)).elim, h.gated⟩
  | _ => exact ⟨h.lock, fun _ _ ht => by cases ht⟩

theorem Sound.steps (h : Sound c)
    (hr : (system options).Steps (fun c a => c.clearsRevocation a = false) c c') : Sound c' :=
  hr.invariant (I := Sound) (fun _ _ _ hu hok hs => hu.step hok hs) h

/-! ## Polls -/

/-- What must be so when ACME is polled on a piece of evidence. -/
structure Gate (c : Controller κ) (e : Evidence κ) : Prop where
  /-- This process holds the owner lock. -/
  lock : c.holder = .thisProcess
  /-- The store was opened under it in this activation. -/
  store : c.hasOwner = true ∧ e.store = c.activation
  /-- The proof was generated in this activation. -/
  proof : e.proof.activation = c.activation
  version : validVersion e.route.version = true
  fingerprint : e.route.fingerprint = e.proof.fingerprint
  /-- No revocation has returned since the proof was posted. -/
  unrevoked : c.revocations = e.postedAt

/-- The evidence on which a step polls `acme.next()`. -/
def polled (c : Controller κ) : Action κ → Option (Evidence κ)
  | .drive (.polled _) =>
    match c.task with
    | .running (.selecting e _) .asleep => if c.permit then none else some e
    | _ => none
  | _ => none

theorem exists_of_polled (h : c.polled a = some e) :
    ∃ phase, c.task = .running (.selecting e phase) .asleep ∧ c.permit = false := by
  unfold polled at h
  split at h
  next =>
    split at h
    next e' phase ht =>
      split at h
      next => cases h
      next hp =>
        cases h
        exact ⟨phase, ht, Bool.eq_false_iff.mpr hp⟩
    next => cases h
  next => cases h

theorem Sound.gate (h : Sound c) (hpo : c.polled a = some e) : Gate c e := by
  obtain ⟨phase, ht, hpe⟩ := exists_of_polled hpo
  obtain ⟨⟨⟨hp, -, -⟩, hr⟩, hs⟩ := h.gated _ _ ht
  have hu : Unrevoked c.signals e.postedAt :=
    hs.resolve_left (by simp [signals, hpe])
  exact ⟨h.lock hp.owner, ⟨hp.owner, hp.store⟩, hp.proof, hr.version,
    hr.fingerprint, hu.revocations⟩

theorem polls_gated {read : Option (Option (Snapshot κ))} {instant : Nat} {now : Int}
    {e : Evidence κ} {a : Action κ}
    (hrun : (system options).Steps (fun c a => c.clearsRevocation a = false)
      (start options read instant now) c)
    (hpolled : c.polled a = some e) : Gate c e :=
  ((sound_start read instant now).steps hrun).gate hpolled

end

/-- The first activation, up to the proof. -/
def firstActivation : List (Action Nat) :=
  [.run, .drive .go, .drive (.acquired (some true)), .drive .go, .drive (.opened (some true)),
    .drive (.imported true), .drive (.exported none), .drive .go]

/-- From the proof to the observation of its route. -/
def posting : List (Action Nat) :=
  [.drive (.proved (some ("proof", 1))), .drive .go, .drive .go]

/-- The observation, and the first select. -/
def observing : List (Action Nat) :=
  [.drive (.observed (some ⟨"proof", "direct-tcp-443"⟩)), .drive .go, .drive .go, .drive .go]

/-- The route is lost while ACME is driven, and observed again in the next activation. -/
theorem polls_gated_after_recovery :
    ∃ c e, (system exampleOptions).Steps (fun c a => c.clearsRevocation a = false)
        (start exampleOptions none 0 0) c ∧
      c.polled (.drive (.polled none)) = some e ∧ c.revocations = 1 ∧ Gate c e := by
  have hru : ∃ c ∈ (system exampleOptions).execWhile (fun c a => c.clearsRevocation a = false)
      (start exampleOptions none 0 0)
      (firstActivation ++ posting ++ observing ++
        [.challengeRouteLost, .call 0, .call 0, .call 0, .drive .go, .drive .go, .drive .go,
          .drive .go, .drive .go, .drive (.opened (some true)), .drive (.imported true),
          .drive (.exported none), .drive .go] ++ posting ++ observing),
      (c.polled (.drive (.polled none))).isSome = true ∧ c.revocations = 1 := by
    decide
  obtain ⟨c, hc, hp, hr⟩ := hru
  obtain ⟨e, he⟩ := Option.isSome_iff_exists.mp hp
  have hs := Lts.Steps.of_execWhile hc
  exact ⟨c, e, hs, he, hr, polls_gated hs he⟩

/-- `challenge_route_lost` sets the flag before `activate` clears it, and returns while the
route is observed. -/
theorem polled_after_revocation :
    ∃ c e, (system exampleOptions).Reaches (start exampleOptions none 0 0) c ∧
      c.polled (.drive (.polled none)) = some e ∧ e.postedAt < c.revocations := by
  have hr : ∃ c ∈ (system exampleOptions).exec (start exampleOptions none 0 0)
      (firstActivation ++ [.challengeRouteLost, .call 0] ++ posting ++ [.call 0, .call 0] ++
        observing ++ [.drive .go, .drive .go, .drive .go]),
      ∃ e ∈ c.polled (.drive (.polled none)), e.postedAt < c.revocations := by
    decide
  obtain ⟨c, hc, e, he, hlt⟩ := hr
  exact ⟨c, e, .of_exec hc, he, hlt⟩

end Controller

end Runewarp.ServerCertificate
