import Runewarp.ServerCertificate.Maintenance

/-!
# The recovery deadline after a failed renewal

The watchdog ends recovery with maintenance once `recovery_timeout` has passed since
`recovery_started`.  When `drive_active` returns an error, `activate` notes the
fingerprint of the certificate whose renewal has failed; the next activation deploys
that certificate from the cache again, and must not take this for the end of recovery.

The fingerprint that is noted is that of the serving snapshot, which `install_snapshot`
may have replaced while ACME was driven.  Then the certificate that the next activation
deploys is another one than was noted, and `recovery_started` is cleared.
-/

namespace Runewarp.ServerCertificate

/-- The controller, with the certificate that its store has committed. -/
structure Renewal (κ : Type) where
  controller : Controller κ
  /-- The fingerprint of the current committed certificate. -/
  current : Option String
  /-- Not in the source: what `current` was when `drive_active` returned an error, if
  since then no CertCacheStore event has come and maintenance was not entered. -/
  failed : Option String

namespace Controller

variable {κ : Type}

/-- `activate` notes that `drive_active` has returned an error. -/
def notesFailure (c : Controller κ) : Action κ → Bool
  | .drive .go =>
    match c.task with
    | .running .renewalFailed .asleep => true
    | _ => false
  | _ => false

/-- The certificate of the store that a step decides on: whether recovery is over. -/
def deploys (c : Controller κ) : Action κ → Option (Snapshot κ)
  | .drive .go =>
    match c.task with
    | .running (.recovering _ _ snapshot) .asleep => some snapshot
    | _ => none
  | _ => none

/-- A CertCacheStore event comes, or maintenance is entered. -/
def endsFailure (c : Controller κ) : Action κ → Bool
  | .drive (.polled (some .certCacheStore)) => true
  | .watch =>
    match c.task with
    | .running _ (.maintaining _) => true
    | _ => false
  | _ => false

end Controller

namespace Renewal

open Controller (handlesStored DriveStep)

section

variable {κ : Type} {options : AcmeOptions κ}

inductive Action (κ : Type) where
  | controller (action : Controller.Action κ)
  /-- The store commits: a certificate is stored, an earlier one is recovered when the
  store is opened, or a legacy one is imported. -/
  | commit (current : Option String)

def start (options : AcmeOptions κ) (read : Option (Option (Snapshot κ))) (instant : Nat)
    (now : Int) (current : Option String) : Renewal κ where
  controller := .start options read instant now
  current := current
  failed := none

/-- What is owed after a step of the controller. -/
def failedAfter (r : Renewal κ) (a : Controller.Action κ) : Option String :=
  if r.controller.endsFailure a then none
  else if r.controller.notesFailure a then r.current
  else r.failed

def step (options : AcmeOptions κ) (r : Renewal κ) : Action κ → Option (Renewal κ)
  | .controller a =>
    (r.controller.step options a).map fun c =>
      { r with controller := c, failed := r.failedAfter a }
  | .commit current => some { r with current := current }

def system (options : AcmeOptions κ) : Lts (Renewal κ) (Action κ) := ⟨step options⟩

/-- A CertCacheStore event comes, or maintenance is entered. -/
def ends (r : Renewal κ) : Action κ → Bool
  | .controller a => r.controller.endsFailure a
  | .commit _ => false

/-- When the failure is noted the serving snapshot is the store's current certificate,
and the certificate that is deployed after the failure is still that one. -/
def SameCertificate (r : Renewal κ) : Action κ → Prop
  | .controller a =>
    (r.controller.notesFailure a = true →
      r.current ≠ none ∧ r.controller.state.snapshot.map Snapshot.fingerprint = r.current) ∧
    ∀ snapshot ∈ r.controller.deploys a, ∀ fingerprint ∈ r.failed,
      snapshot.fingerprint = fingerprint
  | .commit _ => True

instance (r : Renewal κ) : (a : Action κ) → Decidable (r.SameCertificate a)
  | .controller _ => inferInstanceAs (Decidable (_ ∧ _))
  | .commit _ => inferInstanceAs (Decidable True)

variable {r r' : Renewal κ} {c c' : Controller κ} {place next : Drive κ} {answer : Answer κ}

/-! ## The invariant -/

/-- Recovery has begun, or begins in the next step of `drive`. -/
def Recovering (c : Controller κ) : Prop :=
  c.state.recoveryStarted ≠ none ∨ ∃ watchdog, c.task = .running .ended watchdog

/-- What stands while a failed renewal is not repaired. -/
structure Unrepaired (c : Controller κ) (fingerprint : String) : Prop where
  noted : c.state.failedRenewalFingerprint = some fingerprint
  unstored : ∀ place watchdog, c.task = .running place watchdog → handlesStored place = false
  recovering : Recovering c

variable {fingerprint : String}

theorem Unrepaired.keep (h : Unrepaired c fingerprint)
    (hn : c'.state.failedRenewalFingerprint = c.state.failedRenewalFingerprint)
    (hr : c'.state.recoveryStarted = c.state.recoveryStarted) (ht : c'.task = c.task) :
    Unrepaired c' fingerprint where
  noted := hn.trans h.noted
  unstored place watchdog h' := h.unstored place watchdog (ht ▸ h')
  recovering := by
    rw [Recovering, hr, ht]
    exact h.recovering

theorem recoverySince_eq {started : Nat} (h : c.state.recoveryStarted = some started) :
    c.recoverySince = some started := by
  simp [Controller.recoverySince, h]

theorem recoverySince_ne_none : c.recoverySince ≠ none := by
  cases h : c.state.recoveryStarted <;> simp [Controller.recoverySince, h]

/-! ## Steps of the task -/

theorem go_of_recovering {e : Evidence κ} {stored : Bool} {snapshot : Snapshot κ}
    (hs : c.drive options (.recovering e stored snapshot) answer = some (next, c')) :
    answer = .go := by
  cases answer with
  | go => rfl
  | _ => cases hs

theorem drive_renewalFailed (hs : c.drive options .renewalFailed answer = some (next, c')) :
    answer = .go ∧ next = .ended ∧
      c' = { c with state :=
        { c.state with
          failedRenewalFingerprint := c.state.snapshot.map Snapshot.fingerprint } } := by
  cases answer with
  | go =>
    cases hs
    exact ⟨rfl, rfl, rfl⟩
  | _ => cases hs

theorem drive_ended (hs : c.drive options .ended answer = some (next, c')) :
    next = .sleeping ∧ c' = c.deactivate := by
  cases answer with
  | go =>
    cases hs
    exact ⟨rfl, rfl⟩
  | _ => cases hs

/-- Only a CertCacheStore event leads from the select to its handling. -/
theorem stored_of_selecting {e : Evidence κ} {phase : Phase}
    (hs : c.drive options (.selecting e phase) answer = some (next, c'))
    (hst : handlesStored next = true) : answer = .polled (some .certCacheStore) := by
  cases answer with
  | go =>
    change (if c.permit then some (Drive.notified e phase, { c with permit := false })
      else none) = some (next, c') at hs
    split at hs
    next =>
      cases hs
      cases hst
    next => cases hs
  | polled event =>
    change (if c.permit then none else _) = some (next, c') at hs
    split at hs
    next => cases hs
    next =>
      cases event with
      | none =>
        cases hs
        cases hst
      | some event =>
        cases hs
        cases phase <;> cases event <;> first | rfl | cases hst
  | _ => cases hs

/-- Without a CertCacheStore event none comes to be handled. -/
theorem handlesStored_of_drive (hs : c.drive options place answer = some (next, c'))
    (hp : handlesStored place = false) (he : answer ≠ .polled (some .certCacheStore)) :
    handlesStored next = false := by
  have hm : Controller.Moves place next → handlesStored next = false := by
    intro hm
    by_contra hn
    rcases hm.stored (by simpa using hn) with hst | ⟨e, phase, rfl⟩
    · simp [hp] at hst
    · exact he (stored_of_selecting hs (by simpa using hn))
  cases Controller.driveStep_of_drive hs with
  | move h | recover h | fail _ h | install _ h => exact hm h
  | activate => split <;> rfl
  | _ => rfl

/-- What a step of `drive` does to recovery, apart from the two that note something. -/
theorem recovery_of_drive (hs : c.drive options place answer = some (next, c'))
    (he : place ≠ .ended) (hn : place ≠ .renewalFailed)
    (hp : handlesStored place = false)
    (hsa : ∀ e stored snapshot, place = .recovering e stored snapshot →
      c.state.failedRenewalFingerprint = some snapshot.fingerprint) :
    c'.state.recoveryStarted = c.state.recoveryStarted ∧
      c'.state.failedRenewalFingerprint = c.state.failedRenewalFingerprint := by
  cases Controller.driveStep_of_drive hs with
  | recover _ hen =>
    rcases hen with hst | ⟨e, stored, snapshot, hr, ho⟩
    · simp [hp] at hst
    · exact absurd (hsa e stored snapshot hr) ho
  | install _ _ hi =>
    rw [Controller.install_eq hi]
    exact ⟨rfl, rfl⟩
  | renewalFailed => exact absurd rfl hn
  | deactivate => exact absurd rfl he
  | _ => exact ⟨rfl, rfl⟩

theorem Unrepaired.drive (h : Unrepaired c fingerprint) (ht : c.task = .running place .asleep)
    (hs : c.drive options place answer = some (next, c')) (hnt : place ≠ .renewalFailed)
    (hev : answer ≠ .polled (some .certCacheStore))
    (hsa : ∀ e stored snapshot, place = .recovering e stored snapshot →
      snapshot.fingerprint = fingerprint) :
    Unrepaired { c' with task := .running next .asleep } fingerprint ∧
      ∀ started, c.state.recoveryStarted = some started →
        c'.state.recoveryStarted = some started := by
  have hp := h.unstored _ _ ht
  have hn : ∀ place watchdog, Task.running next Watchdog.asleep = .running place watchdog →
      handlesStored place = false := by
    intro place watchdog heq
    cases heq
    exact handlesStored_of_drive hs hp hev
  by_cases he : place = .ended
  · subst he
    obtain ⟨rfl, rfl⟩ := drive_ended hs
    exact ⟨⟨h.noted, hn, .inl recoverySince_ne_none⟩, fun _ => recoverySince_eq⟩
  · obtain ⟨hst, hno⟩ := recovery_of_drive hs he hnt hp
      fun e stored snapshot hr =>
        h.noted.trans (congrArg some (hsa e stored snapshot hr).symm)
    refine ⟨⟨hno.trans h.noted, hn, .inl ?_⟩, fun _ => hst.trans⟩
    rw [hst]
    rcases h.recovering with hre | ⟨watchdog, he'⟩
    · exact hre
    · rw [ht] at he'
      cases he'
      exact absurd rfl he

/-! ## Steps of the controller -/

theorem recoveryStarted_of_call (call : Call) :
    (c.callStep call).1.state.failedRenewalFingerprint = c.state.failedRenewalFingerprint ∧
    (c.state.recoveryStarted ≠ none →
      (c.callStep call).1.state.recoveryStarted = c.state.recoveryStarted) := by
  cases call with
  | requesting =>
    simp only [Controller.callStep]
    split
    next hn => simp_all
    next => exact ⟨rfl, fun _ => rfl⟩
  | revoking =>
    refine ⟨rfl, fun hs => ?_⟩
    obtain ⟨started, hs⟩ := Option.ne_none_iff_exists'.mp hs
    exact (recoverySince_eq hs).trans hs.symm
  | _ => exact ⟨rfl, fun _ => rfl⟩

theorem Unrepaired.call {index : Nat} {call : Call} (h : Unrepaired c fingerprint) :
    Unrepaired { (c.callStep call).1 with
      calls := Controller.remaining c.calls index (c.callStep call).2 } fingerprint := by
  obtain ⟨hn, hs⟩ := recoveryStarted_of_call (c := c) call
  have ht := (Controller.callFrame (c := c) call).task
  refine ⟨hn.trans h.noted, fun place watchdog h' => h.unstored _ _ (ht ▸ h'), ?_⟩
  rcases h.recovering with hr | ⟨watchdog, he⟩
  · exact .inl ((hs hr).symm ▸ hr)
  · exact .inr ⟨watchdog, ht.trans he⟩

theorem Unrepaired.step {a : Controller.Action κ} (h : Unrepaired c fingerprint)
    (hse : Controller.Serviced c) (hs : c.step options a = some c') (hen : c.endsFailure a = false)
    (hn : c.notesFailure a = false)
    (hsa : ∀ snapshot ∈ c.deploys a, snapshot.fingerprint = fingerprint) :
    Unrepaired c' fingerprint ∧ ∀ started, c.state.recoveryStarted = some started →
      c'.state.recoveryStarted = some started := by
  cases Controller.stepSpec_of_step hs with
  | same => exact ⟨h, fun _ => id⟩
  | drive ht hd =>
    refine h.drive ht hd ?_ ?_ ?_
    · rintro rfl
      obtain ⟨rfl, -⟩ := drive_renewalFailed hd
      rw [Controller.notesFailure, ht] at hn
      cases hn
    · rintro rfl
      cases hen
    · rintro e stored snapshot rfl
      obtain rfl := go_of_recovering hd
      exact hsa snapshot (by rw [Controller.deploys, ht]; rfl)
  | call hc =>
    refine ⟨h.call, fun started hst => ?_⟩
    exact ((recoveryStarted_of_call _).2 (by simp [hst])).trans hst
  | run hso =>
    refine ⟨⟨h.noted, fun place watchdog ht => ?_, ?_⟩, fun _ => id⟩
    · cases ht
      rfl
    · rcases h.recovering with hr | ⟨watchdog, he⟩
      · exact .inl hr
      · cases hso.symm.trans (hse.started _ _ he)
  | watch ht =>
    refine ⟨⟨h.noted, fun place watchdog ht' => ?_, ?_⟩, fun _ => id⟩
    · cases ht'
      exact h.unstored _ _ ht
    · refine h.recovering.imp_right ?_
      rintro ⟨watchdog, he⟩
      rw [ht] at he
      cases he
      exact ⟨_, rfl⟩
  | maintain ht =>
    rw [Controller.endsFailure, ht] at hen
    cases hen
  | cancel ht ha =>
    refine ⟨⟨h.noted, fun _ _ ht' => (by cases ht'), ?_⟩, fun _ => id⟩
    rcases h.recovering with hr | ⟨watchdog, he⟩
    · exact .inl hr
    · rw [ht] at he
      cases he
      cases ha
  | dropRunning ht =>
    refine ⟨⟨h.noted, fun _ _ ht' => (by cases ht'), .inl ?_⟩, fun _ => id⟩
    rcases h.recovering with hr | ⟨watchdog, he⟩
    · exact hr
    · cases ht.symm.trans he
  | _ => exact ⟨h.keep rfl rfl rfl, fun _ => id⟩

/-- `activate` notes the error of `drive_active`. -/
theorem unrepaired_of_notesFailure {a : Controller.Action κ} (hs : c.step options a = some c')
    (hn : c.notesFailure a = true)
    (hse : c.state.snapshot.map Snapshot.fingerprint = some fingerprint) :
    Unrepaired c' fingerprint ∧ c'.state.recoveryStarted = c.state.recoveryStarted := by
  unfold Controller.notesFailure at hn
  split at hn
  next =>
    split at hn
    next ht =>
      rw [Controller.step, ht] at hs
      cases hs
      refine ⟨⟨hse, fun place watchdog ht' => ?_, .inr ⟨_, rfl⟩⟩, rfl⟩
      cases ht'
      rfl
    next => cases hn
  next => cases hn

/-! ## Runs -/

structure Inv (r : Renewal κ) : Prop where
  serviced : Controller.Serviced r.controller
  unrepaired : ∀ fingerprint, r.failed = some fingerprint → Unrepaired r.controller fingerprint

theorem inv_start (read : Option (Option (Snapshot κ))) (instant : Nat) (now : Int)
    (current : Option String) : Inv (start options read instant now current) where
  serviced := Controller.serviced_start read instant now
  unrepaired := nofun

theorem Inv.step {a : Action κ} (h : Inv r) (hok : r.SameCertificate a)
    (hs : (system options).step r a = some r') : Inv r' := by
  cases a with
  | commit current =>
    cases hs
    exact ⟨h.serviced, h.unrepaired⟩
  | controller a =>
    obtain ⟨c, hst, rfl⟩ := Option.map_eq_some_iff.mp hs
    refine ⟨h.serviced.step hst, fun fingerprint hf => ?_⟩
    simp only [failedAfter] at hf
    split at hf
    next => cases hf
    next he =>
      split at hf
      next hn =>
        exact (unrepaired_of_notesFailure hst hn ((hok.1 hn).2.trans hf)).1
      next hn =>
        exact ((h.unrepaired fingerprint hf).step h.serviced hst (by simpa using he)
          (by simpa using hn) fun s hs => hok.2 s hs fingerprint hf).1

/-- While the failure stands, a step keeps `recovery_started`. -/
theorem Inv.recoveryStarted_of_step {a : Action κ} {started : Nat} (h : Inv r)
    (hok : r.SameCertificate a) (he : r.ends a = false)
    (hs : (system options).step r a = some r') (hf : r.failed ≠ none)
    (hst : r.controller.state.recoveryStarted = some started) :
    r'.failed ≠ none ∧ r'.controller.state.recoveryStarted = some started := by
  obtain ⟨fingerprint, hf⟩ := Option.ne_none_iff_exists'.mp hf
  have hu := h.unrepaired fingerprint hf
  cases a with
  | commit current =>
    cases hs
    exact ⟨by simp [hf], hst⟩
  | controller a =>
    obtain ⟨c, hsp, rfl⟩ := Option.map_eq_some_iff.mp hs
    simp only [failedAfter, show r.controller.endsFailure a = false from he]
    cases hn : r.controller.notesFailure a with
    | true =>
      obtain ⟨hc, hse⟩ := hok.1 hn
      obtain ⟨current, hc⟩ := Option.ne_none_iff_exists'.mp hc
      have hk := (unrepaired_of_notesFailure hsp hn (hse.trans hc)).2
      exact ⟨by simp [hc], hk.trans hst⟩
    | false =>
      have hk := (hu.step h.serviced hsp he hn
        fun s hs => hok.2 s hs fingerprint hf).2
      exact ⟨by simp [hf], hk started hst⟩

/-- Once `drive_active` has returned an error, recovery has begun or is about to, and
until a CertCacheStore event comes or maintenance is entered `recovery_started` keeps
its value. -/
theorem recovery_deadline_kept {read : Option (Option (Snapshot κ))} {instant : Nat} {now : Int}
    {current : Option String}
    (hrun : (system options).Steps SameCertificate (start options read instant now current) r)
    (hfailed : r.failed ≠ none) :
    Recovering r.controller ∧
      ∀ r', (system options).Steps (fun r a => r.SameCertificate a ∧ r.ends a = false) r r' →
        ∀ started, r.controller.state.recoveryStarted = some started →
          r'.controller.state.recoveryStarted = some started := by
  have h : Inv r := by
    refine hrun.invariant (I := Inv) ?_ (inv_start read instant now current)
    intro r a r' h hok hs
    exact h.step hok hs
  refine ⟨?_, fun r' hl started hst => ?_⟩
  · obtain ⟨fingerprint, hfailed⟩ := Option.ne_none_iff_exists'.mp hfailed
    exact (h.unrepaired fingerprint hfailed).recovering
  · have hk := hl.invariant
      (I := fun r => Inv r ∧ r.failed ≠ none ∧
        r.controller.state.recoveryStarted = some started) ?_ ⟨h, hfailed, hst⟩
    · exact hk.2.2
    · rintro r a r' ⟨h, hfailed, hst⟩ ⟨hok, he⟩ hs
      exact ⟨h.step hok hs, h.recoveryStarted_of_step hok he hs hfailed hst⟩

end

/-- The certificate of the store. -/
def dueCertificate : Snapshot Nat := ⟨7, 0, 100, "due"⟩

/-- From an opened store to the select in which ACME is polled. -/
def toSelect : List (Controller.Action Nat) :=
  [.drive (.opened (some true)), .drive (.imported true), .drive (.exported (some dueCertificate)),
    .drive .go, .drive .go] ++ Controller.posting ++ Controller.observing

/-- The certificate of the cache is deployed, and `drive_active` polls ACME. -/
def redeployed : List (Controller.Action Nat) :=
  [.drive (.polled (some .deployedCachedCert)), .drive (.exported (some dueCertificate)),
    .drive .go, .drive .go, .drive .go]

/-- The first activation, up to the poll of `drive_active`. -/
def renewing : List (Controller.Action Nat) :=
  [.run, .drive .go, .drive (.acquired (some true)), .drive .go] ++ toSelect ++ redeployed

/-- The renewal fails at instant 5. -/
def renewalFails : List (Controller.Action Nat) :=
  [.tick 5, .drive (.polled (some .failed)), .drive .go, .drive .go, .drive .go]

/-- The next activation deploys the same certificate. -/
def nextActivation : List (Controller.Action Nat) :=
  [.tick 7, .drive .go, .drive .go] ++ toSelect ++ redeployed

/-- The next activation deploys the same certificate, and the deadline stays. -/
theorem recovery_deadline_kept_at_redeployment :
    ∃ r r', (system exampleOptions).Steps SameCertificate
        (start exampleOptions none 0 0 (some "due")) r ∧
      r.failed = some "due" ∧ r.controller.state.recoveryStarted = some 5 ∧
      (system exampleOptions).Steps (fun r a => r.SameCertificate a ∧ r.ends a = false) r r' ∧
      r'.controller.state.driving = true ∧ r'.controller.state.recoveryStarted = some 5 := by
  have he : ∃ r ∈ (system exampleOptions).execWhile SameCertificate
      (start exampleOptions none 0 0 (some "due")) ((renewing ++ renewalFails).map .controller),
      r.failed = some "due" ∧ r.controller.state.recoveryStarted = some 5 ∧
      ∃ r' ∈ (system exampleOptions).execWhile (fun r a => r.SameCertificate a ∧ r.ends a = false)
        r (nextActivation.map .controller), r'.controller.state.driving = true := by
    decide
  obtain ⟨r, hr, hf, hs, r', hr', hd⟩ := he
  have hru := Lts.Steps.of_execWhile hr
  have hl := Lts.Steps.of_execWhile hr'
  have hk := (recovery_deadline_kept hru (by simp [hf])).2 r' hl 5 hs
  exact ⟨r, r', hru, hf, hs, hl, hd, hk⟩

/-- Another certificate is installed while the store's is renewed.  The renewal fails, and
the next activation, which deploys the store's certificate as before, clears
`recovery_started`. -/
theorem deadline_cleared_after_install :
    ∃ r r', (system exampleOptions).Reaches (start exampleOptions none 0 0 (some "due")) r ∧
      r.current = some "due" ∧ r.failed = some "due" ∧
      r.controller.state.recoveryStarted = some 5 ∧
      (system exampleOptions).Steps (fun r a => r.ends a = false) r r' ∧
      r'.current = some "due" ∧ r'.controller.state.recoveryStarted = none := by
  have he : ∃ r ∈ (system exampleOptions).exec (start exampleOptions none 0 0 (some "due"))
      ((renewing ++ [Controller.Action.installSnapshot ⟨8, 0, 90, "other"⟩] ++ renewalFails).map
        .controller),
      r.current = some "due" ∧ r.failed = some "due" ∧
      r.controller.state.recoveryStarted = some 5 ∧
      ∃ r' ∈ (system exampleOptions).execWhile (fun r a => r.ends a = false)
        r (nextActivation.map .controller),
        r'.current = some "due" ∧ r'.controller.state.recoveryStarted = none := by
    decide
  obtain ⟨r, hr, hc, hf, hs, r', hr', ha⟩ := he
  exact ⟨r, r', .of_exec hr, hc, hf, hs, .of_execWhile hr', ha⟩

end Renewal

end Runewarp.ServerCertificate
