import Runewarp.ServerCertificate.RouteEvidence

/-!
# Revocation

When `challenge_route_lost` has returned, the status does not report that ACME is driven
or a route version, and the challenge resolver does not delegate to `rustls-acme`, until
an observation that began afterwards has succeeded.

What is shown was installed by an activation that has observed the route.  As long as the
flag that the activation cleared is clear, no revocation has returned since the
observation began; and a revocation that comes later takes down what is shown.
-/

namespace Runewarp.ServerCertificate

namespace Controller

section

variable {κ : Type} {options : AcmeOptions κ} {c c' : Controller κ} {place next : Drive κ}
  {answer : Answer κ}

/-! ## What is shown -/

/-- What the status and the challenge resolver show of the evidence. -/
def Exposed (state : State κ) : Prop :=
  state.driving = true ∨ state.routeVersion ≠ none ∨ state.challenge = some .acme

/-- What an observation knows of the revocations. -/
def Sighted (c : Controller κ) : Drive κ → Prop
  | .observing o => o.observeAt ≤ c.revocations
  | .checking o _ | .starting o _ => c.observedAt = some o.observeAt
  | _ => True

/-- What is shown rests on an observation that no revocation came after. -/
structure Current (c : Controller κ) : Prop where
  observed : Exposed c.state → c.observedAt = some c.revocations ∧ .returning ∉ c.calls
  bounded : ∀ n, c.observedAt = some n → n ≤ c.revocations

/-- Where `drive` is when something is shown. -/
structure Showing (c : Controller κ) (place : Drive κ) : Prop where
  driven : Exposed c.state → driven place = true
  sighted : Sighted c place

/-- `activate` installs what the observation was evidence for after the route was lost. -/
def overwritesRevocation (c : Controller κ) : Action κ → Bool
  | .drive .go =>
    match c.task with
    | .running (.starting _ _) .asleep => c.routeLost
    | _ => false
  | _ => false

theorem Current.mono (h : Current c) (hex : Exposed c'.state → Exposed c.state)
    (ho : c'.observedAt = c.observedAt) (hr : c'.revocations = c.revocations)
    (hc : .returning ∈ c'.calls → .returning ∈ c.calls) : Current c' := by
  refine ⟨fun he => ?_, fun n hn => ?_⟩
  · obtain ⟨hs, hno⟩ := h.observed (hex he)
    rw [ho, hr]
    exact ⟨hs, fun hx => hno (hc hx)⟩
  · rw [hr]
    exact h.bounded n (ho.symm.trans hn)

theorem Sighted.mono (h : Sighted c place) (ho : c'.observedAt = c.observedAt)
    (hr : c.revocations ≤ c'.revocations) : Sighted c' place := by
  cases place with
  | observing o => exact Nat.le_trans h hr
  | checking o route | starting o route => exact ho.trans h
  | _ => trivial

theorem sighted_of_moves (h : observes place = false) : Sighted c place := by
  cases place with
  | observing | checking | starting => cases h
  | _ => trivial

/-! ## Steps of the task -/

theorem Current.drive (h : Current c) (hsh : Showing c place) (hg : Gated c.signals place)
    (hst : ∀ o route, place = .starting o route → c.routeLost = false)
    (hs : DriveStep options c place next c') : Current c' ∧ Showing c' next := by
  have hu : driven place = false → ¬ Exposed c.state := by
    intro hp he
    rw [hsh.driven he] at hp
    cases hp
  cases hs with
  | move hm =>
    exact ⟨h, fun he => hm.driven (hsh.driven he), sighted_of_moves hm.observes⟩
  | recover hm | fail _ hm =>
    exact ⟨h.mono id rfl rfl id, fun he => hm.driven (hsh.driven he),
      sighted_of_moves hm.observes⟩
  | install _ hm hi =>
    rw [install_eq hi]
    exact ⟨h.mono id rfl rfl id, fun he => hm.driven (hsh.driven he),
      sighted_of_moves hm.observes⟩
  | activate =>
    refine ⟨h.mono id rfl rfl id, fun he => (hu rfl he).elim, ?_⟩
    split <;> trivial
  | post store proof =>
    have hex : ¬ Exposed { c.state with challenge := some (.proof proof) } := by
      rintro (he | he | he)
      · exact hu rfl (.inl he)
      · exact hu rfl (.inr (.inl he))
      · cases he
    exact ⟨h.mono (fun he => (hex he).elim) rfl rfl id, fun he => (hex he).elim,
      trivial⟩
  | observe => exact ⟨h, fun he => (hu rfl he).elim, Nat.le_refl _⟩
  | observed o =>
    refine ⟨⟨fun he => (hu rfl he).elim, ?_⟩, fun he => (hu rfl he).elim, rfl⟩
    rintro n ⟨⟩
    exact hsh.sighted
  | check => exact ⟨h, fun he => (hu rfl he).elim, hsh.sighted⟩
  | start o route =>
    -- No revocation came after the observation: the flag would say so.
    obtain ⟨hq, hr⟩ := hg.1.observeAt (hst o route rfl)
    refine ⟨⟨fun _ => ⟨?_, hq.2⟩, h.bounded⟩, fun _ => rfl, trivial⟩
    exact hsh.sighted.trans (congrArg some hr.symm)
  | select => exact ⟨h, fun _ => rfl, trivial⟩
  | consume | renewalFailed => exact ⟨h.mono id rfl rfl id, fun _ => rfl, trivial⟩
  | deactivate =>
    have hex : ¬ Exposed c.deactivate.state := by simp [Exposed, deactivate]
    exact ⟨h.mono (fun he => (hex he).elim) rfl rfl id, fun he => (hex he).elim,
      trivial⟩
  | _ =>
    exact ⟨h.mono id rfl rfl id, fun he => (hu rfl he).elim, trivial⟩

/-! ## Steps of the calls -/

theorem exposed_callStep {call : Call} (h : Exposed (c.callStep call).1.state) :
    Exposed c.state := by
  cases call with
  | requesting =>
    obtain ⟨started, hs⟩ := callStep_requesting (c := c)
    rw [hs] at h
    exact h
  | revoking => simp [Exposed, callStep] at h
  | _ => exact h

theorem Current.call {index : Nat} {call : Call} (h : Current c)
    (hca : c.calls[index]? = some call) :
    Current { (c.callStep call).1 with calls := remaining c.calls index (c.callStep call).2 } := by
  have hm : call ∈ c.calls := List.mem_of_getElem? hca
  have hc : ∀ next : Option Call, next ≠ some .returning →
      .returning ∈ remaining c.calls index next → .returning ∈ c.calls :=
    fun _ hne hx => (mem_remaining hx).resolve_right hne
  cases call with
  | requesting =>
    obtain ⟨started, hs⟩ := callStep_requesting (c := c)
    rw [hs]
    exact h.mono id rfl rfl (hc (some .storing) nofun)
  | storing => exact h.mono id rfl rfl (hc (some .notifying) nofun)
  | notifying => exact h.mono id rfl rfl (hc none nofun)
  | losing => exact h.mono id rfl rfl (hc (some .revoking) nofun)
  | revoking =>
    refine ⟨fun he => ?_, h.bounded⟩
    simp [Exposed, callStep] at he
  | returning =>
    have hex : ¬ Exposed c.state := fun he => (h.observed he).2 hm
    exact ⟨fun he => (hex he).elim, fun n hn => Nat.le_succ_of_le (h.bounded n hn)⟩

/-! ## Runs -/

/-- What is shown is current. -/
structure Shown (c : Controller κ) : Prop where
  sound : Sound c
  current : Current c
  showing : ∀ place watchdog, c.task = .running place watchdog → Showing c place
  started : ∀ place watchdog, c.task = .running place watchdog → c.running = true
  /-- Nothing is shown before `run`. -/
  idle : c.running = false → ¬ Exposed c.state

/-- A step that loses no revocation. -/
abbrev heeds (c : Controller κ) (a : Action κ) : Prop :=
  c.clearsRevocation a = false ∧ c.overwritesRevocation a = false

theorem shown_start (read : Option (Option (Snapshot κ))) (instant : Nat) (now : Int) :
    Shown (start options read instant now) := by
  have hex : ¬ Exposed (start options read instant now).state := by simp [Exposed, start]
  exact ⟨sound_start read instant now, ⟨fun he => (hex he).elim, nofun⟩,
    fun _ _ ht => (by cases ht), fun _ _ ht => (by cases ht), fun _ => hex⟩

theorem Shown.same (h : Shown c) (hso : Sound c') (hex : Exposed c'.state → Exposed c.state)
    (ho : c'.observedAt = c.observedAt) (hr : c'.revocations = c.revocations)
    (hc : .returning ∈ c'.calls → .returning ∈ c.calls)
    (ht : ∀ place watchdog, c'.task = .running place watchdog →
      ∃ watchdog, c.task = .running place watchdog) (hru : c'.running = c.running) :
    Shown c' := by
  refine ⟨hso, h.current.mono hex ho hr hc, ?_, ?_, fun hi he => ?_⟩
  · intro place watchdog hp
    obtain ⟨watchdog', hp'⟩ := ht place watchdog hp
    obtain ⟨hd, hs⟩ := h.showing place watchdog' hp'
    exact ⟨fun he => hd (hex he),
      hs.mono ho (Nat.le_of_eq hr.symm)⟩
  · intro place watchdog hp
    obtain ⟨watchdog', hp'⟩ := ht place watchdog hp
    exact hru.trans (h.started place watchdog' hp')
  · exact h.idle (hru.symm.trans hi) (hex he)

theorem exposed_of_hidden {state : State κ} :
    Exposed { state with challenge := none, driving := false } → Exposed state := by
  rintro (he | he | he)
  · cases he
  · exact .inr (.inl he)
  · cases he

/-- What the observation was evidence for is not installed once the route is lost. -/
theorem routeLost_of_starts (ht : c.task = .running place .asleep)
    (hok : c.overwritesRevocation (.drive answer) = false)
    (hs : c.drive options place answer = some (next, c')) :
    ∀ o route, place = .starting o route → c.routeLost = false := by
  rintro o route rfl
  cases answer with
  | go => simpa only [overwritesRevocation, ht] using hok
  | _ => cases hs

theorem Shown.step {a : Action κ} (h : Shown c) (hok : c.heeds a)
    (hs : c.step options a = some c') : Shown c' := by
  have hso := h.sound.step hok.1 hs
  have ht : ∀ place watchdog, c.task = .running place watchdog →
      ∃ watchdog, c.task = .running place watchdog :=
    fun _ watchdog ht => ⟨watchdog, ht⟩
  cases stepSpec_of_step hs with
  | same => exact h
  | run hr =>
    refine ⟨hso, h.current.mono id rfl rfl id, ?_, fun _ _ _ => rfl, nofun⟩
    rintro _ _ ⟨⟩
    exact ⟨fun he => (h.idle hr he).elim, trivial⟩
  | drive hp hd =>
    have hst := driveStep_of_drive hd
    have hr := hst.running.trans (h.started _ _ hp)
    obtain ⟨hc, hsh⟩ := h.current.drive (h.showing _ _ hp)
      (h.sound.gated _ _ hp) (routeLost_of_starts hp hok.2 hd) hst
    refine ⟨hso, ⟨hc.observed, hc.bounded⟩, ?_, fun _ _ _ => hr, ?_⟩
    · rintro _ _ ⟨⟩
      exact ⟨hsh.driven, hsh.sighted.mono rfl (Nat.le_refl _)⟩
    · intro hi
      cases hr.symm.trans hi
  | watch hp =>
    exact h.same hso id rfl rfl id (by rintro _ _ ⟨⟩; exact ⟨_, hp⟩) rfl
  | cancel => exact h.same hso id rfl rfl id (fun _ _ ht => by cases ht) rfl
  | begin _ _ hre =>
    refine h.same hso id rfl rfl (fun hx => ?_) ht rfl
    rcases List.mem_append.mp hx with hx | hx
    · exact hx
    · exact (hre (List.mem_singleton.mp hx).symm).elim
  | @call index call hca =>
    have hf : CallFrame c (c.callStep call).1 := callFrame call
    refine ⟨hso, h.current.call hca, fun place watchdog hp => ?_,
      fun place watchdog hp => ?_, fun hi he => ?_⟩
    · obtain ⟨hdr, hsi⟩ := h.showing place watchdog (hf.task.symm.trans hp)
      exact ⟨fun he => hdr (exposed_callStep he),
        hsi.mono hf.observedAt hf.revocations⟩
    · exact hf.running.trans (h.started place watchdog (hf.task.symm.trans hp))
    · exact h.idle (hf.running.symm.trans hi) (exposed_callStep he)
  | install | time | lock => exact h.same hso id rfl rfl id ht rfl
  | _ =>
    exact h.same hso exposed_of_hidden rfl rfl id (fun _ _ ht => by cases ht) rfl

theorem Shown.steps (h : Shown c) (hr : (system options).Steps heeds c c') : Shown c' :=
  hr.invariant (I := Shown) (fun _ _ _ hu hok hs => hu.step hok hs) h

/-! ## After a revocation -/

/-- An observation succeeds that began when `n` revocations had returned, or later. -/
def observesSince (n : Nat) (c : Controller κ) : Action κ → Bool
  | .drive (.observed (some _)) =>
    match c.task with
    | .running (.observing o) .asleep => decide (n ≤ o.observeAt)
    | _ => false
  | _ => false

/-- No observation since the `n`-th revocation has succeeded. -/
structure Stale (n : Nat) (c : Controller κ) : Prop where
  observed : ∀ m, c.observedAt = some m → m < n
  revocations : n ≤ c.revocations

theorem Stale.drive {n : Nat} (h : Stale n c) (ht : c.task = .running place .asleep)
    (hok : observesSince n c (.drive answer) = false)
    (hs : c.drive options place answer = some (next, c')) : Stale n c' := by
  cases driveStep_of_drive hs with
  | install _ _ hi =>
    rw [install_eq hi]
    exact ⟨h.observed, h.revocations⟩
  | observed o route =>
    cases answer with
    | observed result =>
      cases result with
      | none => cases hs
      | some _ =>
        refine ⟨?_, h.revocations⟩
        rintro m ⟨⟩
        simpa only [observesSince, ht, decide_eq_false_iff_not, Nat.not_le] using hok
    | _ => cases hs
  | _ => exact ⟨h.observed, h.revocations⟩

theorem Stale.step {n : Nat} {a : Action κ} (h : Stale n c) (hok : observesSince n c a = false)
    (hs : c.step options a = some c') : Stale n c' := by
  cases stepSpec_of_step hs with
  | drive ht hd =>
    have hn := h.drive ht hok hd
    exact ⟨hn.observed, hn.revocations⟩
  | @call _ call _ =>
    have hf : CallFrame c (c.callStep call).1 := callFrame call
    refine ⟨fun m hm => h.observed m (hf.observedAt.symm.trans hm), ?_⟩
    exact Nat.le_trans h.revocations hf.revocations
  | _ => exact ⟨h.observed, h.revocations⟩

theorem Current.stale {index : Nat} (h : Current c) (hc : c.calls[index]? = some .returning)
    (hs : c.step options (.call index) = some c') : Stale c'.revocations c' := by
  simp only [Controller.step, hc, Option.some.injEq] at hs
  subst hs
  exact ⟨fun m hm => Nat.lt_succ_of_le (h.bounded m hm), Nat.le_refl _⟩

theorem Shown.not_exposed {n : Nat} (h : Shown c) (hs : Stale n c) : ¬ Exposed c.state := by
  intro he
  have hlt := hs.observed _ (h.current.observed he).1
  have hle := hs.revocations
  omega

theorem resolveChallenge_ne_delegated {policy : CertificateValidation κ} {state : State κ}
    (h : ¬ Exposed state) (isChallenge : Hello → Bool) (hello : Hello) :
    resolveChallenge isChallenge policy state hello ≠ .delegated := by
  intro heq
  unfold resolveChallenge at heq
  split at heq
  next => cases heq
  next =>
    split at heq
    next => cases heq
    next =>
      split at heq
      next => cases heq
      next => cases heq
      next ha => exact h (.inr (.inr ha))

/-- Nothing of the evidence is shown. -/
structure Hidden (options : AcmeOptions κ) (c : Controller κ) : Prop where
  driving : (status c.state options.validation c.now).drivingAcme = false
  routeVersion : (status c.state options.validation c.now).routeVersion = none
  resolver : ∀ isChallenge hello,
    resolveChallenge isChallenge options.validation c.state hello ≠ .delegated

theorem hidden_of_not_exposed (h : ¬ Exposed c.state) : Hidden options c where
  driving := Bool.eq_false_iff.mpr fun hd => h (.inl hd)
  routeVersion := not_not.mp fun hv => h (.inr (.inl hv))
  resolver := resolveChallenge_ne_delegated h

theorem revocation_immediate {read : Option (Option (Snapshot κ))} {instant : Nat} {now : Int}
    {index : Nat} {c₁ c₂ : Controller κ}
    (hrun : (system options).Steps heeds (start options read instant now) c)
    (hcall : c.calls[index]? = some .returning)
    (hreturn : c.step options (.call index) = some c₁)
    (hsince : (system options).Steps
      (fun d a => d.heeds a ∧ observesSince c₁.revocations d a = false)
      c₁ c₂) : Hidden options c₂ := by
  have hc := (shown_start read instant now).steps hrun
  have hc₁ := hc.step ⟨rfl, rfl⟩ hreturn
  have hc₂ := hc₁.steps (hsince.mono fun _ _ h => h.1)
  have hs := hsince.invariant (I := Stale c₁.revocations)
    (fun _ _ _ hu hok hst => hu.step hok.2 hst) (hc.current.stale hcall hreturn)
  exact hidden_of_not_exposed (hc₂.not_exposed hs)

end

/-- The route is lost while ACME is driven; the next activation awaits its observation. -/
theorem revocation_immediate_until_observed :
    ∃ c c₁ c₂, (system exampleOptions).Steps heeds (start exampleOptions none 0 0) c ∧
      c.calls[0]? = some .returning ∧ c.step exampleOptions (.call 0) = some c₁ ∧
      (system exampleOptions).Steps
        (fun d a => d.heeds a ∧ observesSince c₁.revocations d a = false) c₁ c₂ ∧
      c₂.activation = 2 ∧ Hidden exampleOptions c₂ := by
  have hr : ∃ c ∈ (system exampleOptions).execWhile heeds (start exampleOptions none 0 0)
      (firstActivation ++ posting ++ observing ++ [.challengeRouteLost, .call 0, .call 0]),
      c.calls[0]? = some .returning ∧ ∃ c₁ ∈ c.step exampleOptions (.call 0),
      ∃ c₂ ∈ (system exampleOptions).execWhile
        (fun d a => d.heeds a ∧ observesSince c₁.revocations d a = false) c₁
        ([.drive .go, .drive .go, .drive .go, .drive .go, .drive .go,
          .drive (.opened (some true)), .drive (.imported true), .drive (.exported none),
          .drive .go] ++ posting), c₂.activation = 2 := by
    decide
  obtain ⟨c, hc, hca, c₁, hc₁, c₂, hc₂, ha⟩ := hr
  have hst := Lts.Steps.of_execWhile hc
  have hs := Lts.Steps.of_execWhile hc₂
  exact ⟨c, c₁, c₂, hst, hca, hc₁, hs, ha,
    revocation_immediate hst hca hc₁ hs⟩

/-- `activate` has read the flag; `challenge_route_lost` is called and returns; `activate`
installs what it has evidence for. -/
theorem revocation_overwritten :
    ∃ c c₁ c₂, (system exampleOptions).Reaches (start exampleOptions none 0 0) c ∧
      c.calls[0]? = some .returning ∧ c.step exampleOptions (.call 0) = some c₁ ∧
      (system exampleOptions).Steps (fun d a => observesSince c₁.revocations d a = false) c₁ c₂ ∧
      (status c₂.state exampleOptions.validation c₂.now).drivingAcme = true ∧
      (status c₂.state exampleOptions.validation c₂.now).routeVersion = some "direct-tcp-443" ∧
      resolveChallenge (·.alpn = some [acmeTlsAlpn]) exampleOptions.validation c₂.state
        ⟨some "edge.example.test", some [acmeTlsAlpn]⟩ = .delegated := by
  have hr : ∃ c ∈ (system exampleOptions).exec (start exampleOptions none 0 0)
      (firstActivation ++ posting ++ observing.take 2 ++ [.challengeRouteLost, .call 0, .call 0]),
      c.calls[0]? = some .returning ∧ ∃ c₁ ∈ c.step exampleOptions (.call 0),
      ∃ c₂ ∈ (system exampleOptions).execWhile
        (fun d a => observesSince c₁.revocations d a = false) c₁ [.drive .go],
      (status c₂.state exampleOptions.validation c₂.now).drivingAcme = true ∧
      (status c₂.state exampleOptions.validation c₂.now).routeVersion = some "direct-tcp-443" ∧
      resolveChallenge (·.alpn = some [acmeTlsAlpn]) exampleOptions.validation c₂.state
        ⟨some "edge.example.test", some [acmeTlsAlpn]⟩ = .delegated := by
    decide
  obtain ⟨c, hc, hca, c₁, hc₁, c₂, hc₂, hs⟩ := hr
  exact ⟨c, c₁, c₂, .of_exec hc, hca, hc₁, .of_execWhile hc₂, hs⟩

end Controller

end Runewarp.ServerCertificate
