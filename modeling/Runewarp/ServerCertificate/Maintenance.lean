import Runewarp.ServerCertificate.RouteEvidence

/-!
# Maintenance and the serving window

Maintenance is entered by the watchdog, and `run` returns.  The flag `running` is not
cleared, so the task does not run again; what other threads may still call neither
installs a certificate nor posts a challenge.

The two resolvers read different fields.  Where their keys come from is followed through
`drive` by a label of each key: a certificate that was validated, the proof of the route,
or a key that `rustls-acme` made for a challenge.
-/

namespace Runewarp.ServerCertificate

/-- Where a key comes from. -/
inductive KeyOrigin where
  | certificate
  | proof
  | challenge
deriving DecidableEq

/-- The key that a resolver answers with; `acme` is `resolve` of `ResolvesServerCertAcme`. -/
def Resolved.answer {κ : Type} (acme : Hello → Option κ) (hello : Hello) : Resolved κ → Option κ
  | .nothing => none
  | .key k => some k
  | .delegated => acme hello

/-- The resolver of `rustls-acme` answers a challenge with a key it keeps for challenges. -/
def AnswersChallenges {κ : Type} (isChallenge : Hello → Bool) (acme : Hello → Option κ)
    (origin : κ → KeyOrigin) : Prop :=
  ∀ hello key, isChallenge hello = true → acme hello = some key → origin key = .challenge

namespace Controller

section

variable {κ : Type} {options : AcmeOptions κ} {c c' : Controller κ} {place next : Drive κ}
  {answer : Answer κ}

/-! ## Maintenance -/

structure InMaintenance (c : Controller κ) : Prop where
  maintenance : c.state.maintenance = true
  ready : c.ready = false
  driving : c.state.driving = false
  challenge : c.state.challenge = none
  running : c.running = true
  stopped : ∀ place watchdog, c.task ≠ .running place watchdog

theorem InMaintenance.call {call : Call} {calls : List Call} (h : InMaintenance c) :
    InMaintenance { (c.callStep call).1 with calls := calls } := by
  cases call with
  | requesting =>
    obtain ⟨started, hs⟩ := callStep_requesting (c := c)
    rw [hs]
    exact ⟨h.maintenance, h.ready, h.driving, h.challenge, h.running, h.stopped⟩
  | revoking => exact ⟨h.maintenance, h.ready, rfl, rfl, h.running, h.stopped⟩
  | _ =>
    exact ⟨h.maintenance, h.ready, h.driving, h.challenge, h.running, h.stopped⟩

variable {a : Action κ} {policy : CertificateValidation κ}

theorem InMaintenance.step (h : InMaintenance c) (hs : c.step options a = some c') :
    InMaintenance c' := by
  cases stepSpec_of_step hs with
  | same => exact h
  | run hr => cases hr.symm.trans h.running
  | drive ht | watch ht | maintain ht | cancel ht => exact absurd ht (h.stopped _ _)
  | dropRunning =>
    exact ⟨h.maintenance, h.ready, rfl, rfl, h.running, fun _ _ ht => by cases ht⟩
  | call => exact h.call
  | install _ ho => cases ho.symm.trans h.maintenance
  | _ =>
    exact ⟨h.maintenance, h.ready, h.driving, h.challenge, h.running, h.stopped⟩

/-- Maintenance is entered in one step, and the task has been started. -/
structure Serviced (c : Controller κ) : Prop where
  started : ∀ place watchdog, c.task = .running place watchdog → c.running = true
  terminal : c.state.maintenance = true → InMaintenance c

theorem serviced_start (read : Option (Option (Snapshot κ))) (instant : Nat) (now : Int) :
    Serviced (start options read instant now) :=
  ⟨fun _ _ ht => (by cases ht), fun hm => by cases hm⟩

theorem Serviced.step (h : Serviced c) (hs : c.step options a = some c') : Serviced c' := by
  have hl : c.state.maintenance = true → InMaintenance c' := fun hm => (h.terminal hm).step hs
  cases stepSpec_of_step hs with
  | same => exact h
  | run => exact ⟨fun _ _ _ => rfl, hl⟩
  | drive ht hd =>
    have hst := driveStep_of_drive hd
    refine ⟨fun _ _ _ => hst.running.trans (h.started _ _ ht), fun hm => ?_⟩
    exact hl (hst.maintenance.symm.trans hm)
  | watch ht => exact ⟨fun _ _ _ => h.started _ _ ht, hl⟩
  | maintain ht =>
    exact ⟨fun _ _ ht' => (by cases ht'), fun _ =>
      ⟨rfl, rfl, rfl, rfl, h.started _ _ ht, fun _ _ ht' => by cases ht'⟩⟩
  | cancel | dropRunning => exact ⟨fun _ _ ht' => (by cases ht'), hl⟩
  | @call _ call _ =>
    have hf : CallFrame c (c.callStep call).1 := callFrame call
    refine ⟨fun place watchdog ht => ?_, fun hm => hl ?_⟩
    · exact hf.running.trans (h.started _ _ (hf.task.symm.trans ht))
    · cases call with
      | requesting =>
        obtain ⟨started, hst⟩ := callStep_requesting (c := c)
        simpa only [hst] using hm
      | _ => exact hm
  | _ => exact ⟨h.started, hl⟩

/-! ## The serving window -/

theorem usable_eq_true {state : State κ} {now : Int} (h : usable state policy now = true) :
    state.maintenance = false ∧ ∃ snapshot, state.snapshot = some snapshot ∧
      snapshot.validFrom ≤ now ∧ now + policy.safetyMargin < snapshot.expiresAt := by
  obtain ⟨ho, ha⟩ := Bool.and_eq_true_iff.mp h
  refine ⟨by simpa using ho, ?_⟩
  cases hs : state.snapshot with
  | none =>
    rw [hs] at ha
    cases ha
  | some snapshot =>
    rw [hs, Option.any_some, Bool.and_eq_true_iff, decide_eq_true_iff, decide_eq_true_iff] at ha
    exact ⟨snapshot, rfl, ha.1, by omega⟩

/-- When the ordinary resolver has a key for a handshake. -/
structure InWindow (policy : CertificateValidation κ) (state : State κ) (now : Int)
    (hello : Hello) (key : κ) : Prop where
  serverName : hello.serverName = some policy.hostname
  alpn : ∀ protocols, hello.alpn = some protocols → acmeTlsAlpn ∉ protocols
  maintenance : state.maintenance = false
  window : ∃ snapshot, state.snapshot = some snapshot ∧ snapshot.key = key ∧
    snapshot.validFrom ≤ now ∧ now + policy.safetyMargin < snapshot.expiresAt

theorem inWindow_of_resolveServing {state : State κ} {now : Int} {hello : Hello} {key : κ}
    (h : resolveServing policy state now hello = .key key) :
    InWindow policy state now hello key := by
  unfold resolveServing at h
  split at h
  next => cases h
  next hn =>
    split at h
    next => cases h
    next hok =>
      obtain ⟨ha, hu⟩ : hello.alpn.any (·.contains acmeTlsAlpn) = false ∧
          usable state policy now = true := by simpa using hok
      obtain ⟨ho, snapshot, hs, hw⟩ := usable_eq_true hu
      rw [hs] at h
      cases h
      refine ⟨not_not.mp hn, fun protocols hp hm => ?_, ho, snapshot, hs, rfl,
        hw⟩
      rw [hp] at ha
      simp [hm] at ha

/-! ## Where the keys come from -/

/-- The certificate that `drive` is about to install. -/
def certificateAt : Drive κ → Option (Snapshot κ)
  | .installing _ snapshot | .recovering _ _ snapshot | .installingFirst _ snapshot
  | .installingRenewed _ snapshot => some snapshot
  | _ => none

/-- The proof that `drive` is about to post. -/
def proofAt : Drive κ → Option (Proof κ)
  | .posting _ proof => some proof
  | _ => none

/-- What a step of `drive` does with keys. -/
structure HandlesKeys (c : Controller κ) (place : Drive κ) (answer : Answer κ) (next : Drive κ)
    (c' : Controller κ) : Prop where
  snapshot : ∀ s, c'.state.snapshot = some s →
    c.state.snapshot = some s ∨ certificateAt place = some s
  challenge : ∀ p, c'.state.challenge = some (.proof p) →
    c.state.challenge = some (.proof p) ∨ proofAt place = some p
  certificate : ∀ s, certificateAt next = some s →
    certificateAt place = some s ∨ answer = .exported (some s)
  proof : ∀ p, proofAt next = some p → ∃ fingerprint, answer = .proved (some (fingerprint, p.key))

theorem HandlesKeys.plain (hst : c'.state.snapshot = c.state.snapshot)
    (hch : ∀ p, c'.state.challenge = some (.proof p) → c.state.challenge = some (.proof p))
    (hc : certificateAt next = none ∨ certificateAt next = certificateAt place)
    (hpr : proofAt next = none) : HandlesKeys c place answer next c' where
  snapshot s hs := .inl (hst ▸ hs)
  challenge p hp := .inl (hch p hp)
  certificate s hs := by
    rcases hc with hn | heq
    · cases hn.symm.trans hs
    · exact .inl (heq ▸ hs)
  proof p hp := by cases hpr.symm.trans hp

theorem HandlesKeys.exported {snapshot : Snapshot κ} (hn : certificateAt next = some snapshot)
    (hpr : proofAt next = none) : HandlesKeys c place (.exported (some snapshot)) next c where
  snapshot s hs := .inl hs
  challenge p hp := .inl hp
  certificate s hs := by
    cases hn.symm.trans hs
    exact .inr rfl
  proof p hp := by cases hpr.symm.trans hp

theorem handlesKeys_install {snapshot : Snapshot κ} {done stop : Drive κ}
    (hs : c.installThen options snapshot done stop = some (next, c'))
    (hpl : certificateAt place = some snapshot)
    (hd : certificateAt done = none ∧ proofAt done = none)
    (hst : certificateAt stop = none ∧ proofAt stop = none) :
    HandlesKeys c place answer next c' := by
  unfold installThen at hs
  split at hs
  next hi =>
    cases hs
    rw [install_eq hi]
    refine ⟨fun s h => ?_, fun p hp => .inl hp, fun s h => ?_, fun p hp => ?_⟩
    · cases h
      exact .inr hpl
    · cases hd.1.symm.trans h
    · cases hd.2.symm.trans hp
  next =>
    cases hs
    exact .plain rfl (fun _ hp => hp) (.inl hst.1) hst.2

/-- Where an event of `rustls-acme` leads, there is neither a certificate nor a proof. -/
theorem keys_afterEvent (e : Evidence κ) (phase : Phase) (event : Event) :
    certificateAt (afterEvent e phase event) = none ∧
      proofAt (afterEvent e phase event) = none := by
  cases phase <;> cases event <;> exact ⟨rfl, rfl⟩

theorem handlesKeys_of_drive (hs : c.drive options place answer = some (next, c')) :
    HandlesKeys c place answer next c' := by
  -- A step that leaves the keys alone.
  have hpl : ∀ {place next : Drive κ} {answer : Answer κ} {c' : Controller κ},
      c'.state.snapshot = c.state.snapshot → c'.state.challenge = c.state.challenge →
      certificateAt next = none ∧ proofAt next = none → HandlesKeys c place answer next c' :=
    fun hsn hc hn =>
      .plain hsn (fun _ hp => hc ▸ hp) (.inl hn.1) hn.2
  unfold Controller.drive at hs
  split at hs
  -- The branches that leave the keys alone, export or install.
  any_goals (cases hs; exact hpl rfl rfl ⟨rfl, rfl⟩)
  any_goals (cases hs; split <;> exact hpl rfl rfl ⟨rfl, rfl⟩)
  any_goals (cases hs; exact .exported rfl rfl)
  any_goals exact handlesKeys_install hs rfl ⟨rfl, rfl⟩ ⟨rfl, rfl⟩
  next =>
    split at hs
    next =>
      cases hs
      split <;> exact hpl rfl rfl ⟨rfl, rfl⟩
    next =>
      cases hs
      exact hpl rfl rfl ⟨rfl, rfl⟩
  iterate 3
    next =>
      split at hs <;> cases hs
      exact hpl rfl rfl ⟨rfl, rfl⟩
  next fingerprint key =>
    cases hs
    refine ⟨fun _ h => .inl h, fun _ h => .inl h, fun _ h => (by cases h), fun p hp => ?_⟩
    cases hp
    exact ⟨fingerprint, rfl⟩
  next =>
    cases hs
    refine ⟨fun _ h => .inl h, fun p hp => ?_, fun _ h => (by cases h), fun _ h => by cases h⟩
    cases hp
    exact .inr rfl
  next =>
    split at hs <;> cases hs <;> exact hpl rfl rfl ⟨rfl, rfl⟩
  next =>
    cases hs
    exact .plain rfl (fun _ hp => (by cases hp)) (.inl rfl) rfl
  next =>
    split at hs <;> cases hs
    exact hpl rfl rfl ⟨rfl, rfl⟩
  next =>
    split at hs
    next => cases hs
    next =>
      split at hs
      next =>
        cases hs
        exact hpl rfl rfl ⟨rfl, rfl⟩
      next =>
        cases hs
        exact hpl rfl rfl (keys_afterEvent _ _ _)
  next =>
    cases hs
    split <;> exact .plain rfl (fun _ hp => hp) (.inr rfl) rfl
  next =>
    cases hs
    exact .plain rfl (fun _ hp => (by cases hp)) (.inl rfl) rfl
  next => cases hs

/-- The keys that a step brings in are what they are labelled. -/
def labels (origin : κ → KeyOrigin) : Action κ → Prop
  | .drive (.exported (some snapshot)) | .installSnapshot snapshot =>
    origin snapshot.key = .certificate
  | .drive (.proved (some (_, key))) => origin key = .proof
  | _ => True

/-- Every key is where its label allows it. -/
structure Traced (origin : κ → KeyOrigin) (c : Controller κ) : Prop where
  snapshot : ∀ s, c.state.snapshot = some s → origin s.key = .certificate
  challenge : ∀ p, c.state.challenge = some (.proof p) → origin p.key = .proof
  certificate : ∀ place watchdog, c.task = .running place watchdog → ∀ s,
    certificateAt place = some s → origin s.key = .certificate
  proof : ∀ place watchdog, c.task = .running place watchdog → ∀ p,
    proofAt place = some p → origin p.key = .proof

variable {origin : κ → KeyOrigin}

theorem Traced.mono (h : Traced origin c) (hsn : c'.state.snapshot = c.state.snapshot)
    (hc : c'.state.challenge = none ∨ c'.state.challenge = c.state.challenge)
    (ht : ∀ place watchdog, c'.task = .running place watchdog →
      ∃ watchdog, c.task = .running place watchdog) : Traced origin c' where
  snapshot s hs := h.snapshot s (hsn ▸ hs)
  challenge p hp := by
    rcases hc with hn | heq
    · cases hn.symm.trans hp
    · exact h.challenge p (heq ▸ hp)
  certificate place watchdog hpl := by
    obtain ⟨watchdog', hp'⟩ := ht place watchdog hpl
    exact h.certificate place watchdog' hp'
  proof place watchdog hpl := by
    obtain ⟨watchdog', hp'⟩ := ht place watchdog hpl
    exact h.proof place watchdog' hp'

theorem Traced.drive (h : Traced origin c) (ht : c.task = .running place .asleep)
    (hl : labels origin (.drive answer)) (hk : HandlesKeys c place answer next c') :
    Traced origin { c' with task := .running next .asleep } where
  snapshot s hs := (hk.snapshot s hs).elim (h.snapshot s) (h.certificate _ _ ht s)
  challenge p hp := (hk.challenge p hp).elim (h.challenge p) (h.proof _ _ ht p)
  certificate := by
    rintro _ _ ⟨⟩ s hs
    rcases hk.certificate s hs with hpl | rfl
    · exact h.certificate _ _ ht s hpl
    · exact hl
  proof := by
    rintro _ _ ⟨⟩ p hp
    obtain ⟨fingerprint, rfl⟩ := hk.proof p hp
    exact hl

theorem Traced.step (h : Traced origin c) (hl : labels origin a) (hs : c.step options a = some c') :
    Traced origin c' := by
  have ht : ∀ place watchdog, c.task = .running place watchdog →
      ∃ watchdog, c.task = .running place watchdog :=
    fun _ watchdog ht => ⟨watchdog, ht⟩
  cases stepSpec_of_step hs with
  | same => exact h
  | run =>
    refine ⟨h.snapshot, h.challenge, ?_, ?_⟩
    · rintro _ _ ⟨⟩ s hs
      cases hs
    · rintro _ _ ⟨⟩ p hp
      cases hp
  | drive hpl hd => exact h.drive hpl hl (handlesKeys_of_drive hd)
  | watch hpl => exact h.mono rfl (.inr rfl) (by rintro _ _ ⟨⟩; exact ⟨_, hpl⟩)
  | cancel => exact h.mono rfl (.inr rfl) (fun _ _ ht => by cases ht)
  | @call _ call _ =>
    have hf : CallFrame c (c.callStep call).1 := callFrame call
    refine h.mono ?_ ?_ (fun _ watchdog hpl => ⟨watchdog, hf.task.symm.trans hpl⟩)
    · cases call with
      | requesting =>
        obtain ⟨started, hst⟩ := callStep_requesting (c := c)
        rw [hst]
      | _ => rfl
    · cases call with
      | requesting =>
        obtain ⟨started, hst⟩ := callStep_requesting (c := c)
        rw [hst]
        exact .inr rfl
      | revoking => exact .inl rfl
      | _ => exact .inr rfl
  | install snapshot =>
    refine ⟨fun s hs => ?_, h.challenge, h.certificate, h.proof⟩
    cases hs
    exact hl
  | begin | lock | time => exact h.mono rfl (.inr rfl) ht
  | _ => exact h.mono rfl (.inl rfl) (fun _ _ ht => by cases ht)

/-- The answer of the challenge resolver is a proof or a key for a challenge. -/
theorem Traced.origin_challenge {isChallenge : Hello → Bool} {acme : Hello → Option κ}
    {hello : Hello} {key : κ} (h : Traced origin c) (ha : AnswersChallenges isChallenge acme origin)
    (hk : (resolveChallenge isChallenge policy c.state hello).answer acme hello = some key) :
    origin key = .proof ∨ origin key = .challenge := by
  unfold resolveChallenge at hk
  split at hk
  next => cases hk
  next =>
    split at hk
    next => cases hk
    next hok =>
      split at hk
      next => cases hk
      next proof hp =>
        cases hk
        exact .inl (h.challenge proof hp)
      next =>
        -- Only a handshake for a challenge gets here.
        have hch : isChallenge hello = true := by
          by_contra hne
          simp [hne] at hok
        exact .inr (ha hello key hch hk)

/-- In every run: once in maintenance, the controller stays there, serves nothing, is not
ready, drives nothing, has no challenge and installs nothing; the ordinary resolver has a
key only in the window of the installed certificate; and where keys are labelled by where
they come from, the ordinary resolver answers with certificates only and the challenge
resolver never does. -/
theorem maintenance_and_window {read : Option (Option (Snapshot κ))} {instant : Nat} {now : Int}
    (hrun : (system options).Reaches (start options read instant now) c) :
    (c.state.maintenance = true → ∀ c', (system options).Reaches c c' →
      (∀ now, usable c'.state options.validation now = false) ∧ c'.ready = false ∧
        c'.state.driving = false ∧ c'.state.challenge = none ∧
        ∀ snapshot, c'.install options snapshot = none) ∧
    (∀ now hello key, resolveServing options.validation c.state now hello = .key key →
      InWindow options.validation c.state now hello key) ∧
    ∀ origin : κ → KeyOrigin, (∀ s, read = some (some s) → origin s.key = .certificate) →
      (system options).Steps (fun _ a => labels origin a) (start options read instant now) c →
      (∀ now hello key, resolveServing options.validation c.state now hello = .key key →
        origin key = .certificate) ∧
      ∀ isChallenge acme hello key, AnswersChallenges isChallenge acme origin →
        (resolveChallenge isChallenge options.validation c.state hello).answer acme hello =
          some key → origin key ≠ .certificate := by
  refine ⟨fun hm c' hla => ?_, fun _ _ _ hk => inWindow_of_resolveServing hk, ?_⟩
  · have hse : Serviced c := hrun.invariant (I := Serviced)
      (fun _ _ _ hi _ hst => hi.step hst) (serviced_start read instant now)
    have hin : InMaintenance c' := hla.invariant (I := InMaintenance)
      (fun _ _ _ hi _ hst => hi.step hst) (hse.terminal hm)
    refine ⟨fun now => ?_, hin.ready, hin.driving, hin.challenge, fun snapshot => ?_⟩
    · simp [usable, hin.maintenance]
    · simp [install, hin.maintenance]
  · intro origin hr hl
    have ht : Traced origin c := by
      refine hl.invariant (I := Traced origin)
        (fun _ _ _ hi hok hst => hi.step hok hst) ⟨fun s hs => ?_, ?_, ?_, ?_⟩
      · cases read with
        | none => cases hs
        | some snapshot =>
          obtain rfl : snapshot = some s := hs
          exact hr s rfl
      · rintro p ⟨⟩
      · rintro _ _ ⟨⟩
      · rintro _ _ ⟨⟩
    refine ⟨fun now hello key hk => ?_, fun _ acme hello key ha hk heq => ?_⟩
    · obtain ⟨snapshot, hsn, rfl, -⟩ := (inWindow_of_resolveServing hk).window
      exact ht.snapshot snapshot hsn
    · rcases ht.origin_challenge ha hk with h | h <;> cases heq.symm.trans h

end

/-- The certificate comes to its safety margin while the lock is awaited. -/
def reachesMargin : List (Action Nat) :=
  [.run, .drive .go, .setClock 9, .watch, .watch, .watch]

def sampleStart : Controller Nat := start exampleOptions (some (some ⟨7, 0, 10, "a"⟩)) 0 0

/-- The key 7 is of a certificate, 1 of a proof. -/
def sampleOrigin (key : Nat) : KeyOrigin :=
  if key = 7 then .certificate else if key = 1 then .proof else .challenge

def challengeHello : Hello := ⟨some "edge.example.test", some [acmeTlsAlpn]⟩

/-- Nothing is installed after the margin; and while a proof of the route is posted, the
certificate is served and the proof is the answer to a challenge. -/
theorem maintenance_and_window_at_margin :
    (∃ c, (system exampleOptions).Reaches sampleStart c ∧ c.state.maintenance = true ∧
      c.ready = false ∧ ∀ snapshot, c.install exampleOptions snapshot = none) ∧
    ∃ c, (system exampleOptions).Reaches sampleStart c ∧
      InWindow exampleOptions.validation c.state 5 ⟨some "edge.example.test", none⟩ 7 ∧
      sampleOrigin 7 = .certificate ∧
      (resolveChallenge (fun _ => true) exampleOptions.validation c.state challengeHello).answer
        (fun _ => some 2) challengeHello = some 1 ∧ sampleOrigin 1 ≠ .certificate := by
  have he : ∃ c ∈ (system exampleOptions).exec sampleStart reachesMargin,
      c.state.maintenance = true := by
    decide
  have hp : ∃ c ∈ (system exampleOptions).exec sampleStart (firstActivation ++ posting),
      resolveServing exampleOptions.validation c.state 5 ⟨some "edge.example.test", none⟩ =
        .key 7 ∧
      (resolveChallenge (fun _ => true) exampleOptions.validation c.state challengeHello).answer
        (fun _ => some 2) challengeHello = some 1 := by
    decide
  obtain ⟨c, hc, hm⟩ := he
  obtain ⟨d, hd, hs, hch⟩ := hp
  have hru := Lts.Reaches.of_exec hc
  obtain ⟨-, hr, -, -, hi⟩ := (maintenance_and_window hru).1 hm c .refl
  obtain ⟨-, hw, hl⟩ := maintenance_and_window (.of_exec hd)
  obtain ⟨hse, hal⟩ := hl sampleOrigin (by rintro s ⟨⟩; rfl)
    (.of_exec hd (by simp [firstActivation, posting, labels, sampleOrigin]))
  have ha : AnswersChallenges (fun _ => true) (fun _ => some 2) sampleOrigin := by
    rintro _ _ - ⟨⟩
    rfl
  exact ⟨⟨c, hru, hm, hr, hi⟩, d, .of_exec hd, hw _ _ _ hs, hse _ _ _ hs, hch,
    hal _ _ _ _ ha hch⟩

end Controller

end Runewarp.ServerCertificate
