import Runewarp.CertificateRotation
import Runewarp.Lib.Lts

/-!
# Rotating the identity of a running Client

Every attempt to connect a Tunnel loads the identity from its directory, the certificate
first and then the key.  `rotate_client_identity` replaces the key first and then the
certificate.  An attempt that reads the certificate before its replacement and the key after
its own has one of each, and a configuration that cannot be built ends the Client.

`attempt_loads_one_identity` says that nothing else goes wrong, for any number of attempts
whose reads fall anywhere in the rotation.
-/

namespace Runewarp.Client

open Rotation

/-- `ClientStartupError`, as far as `classify_connect_failure` tells its variants apart. -/
inductive ClientStartupError where
  | tlsMaterial
  | quicConfig
  | connect (wrongGeneration unauthorized : Bool)

/-- The failure in `TunnelAttemptOutcome::Retryable`. -/
inductive AttemptFailureKind where
  | wrongGeneration
  | unauthorized
  | transport

/-- `TunnelAttemptOutcome`, of an attempt that did not connect. -/
inductive FailedAttempt where
  | fatalLocalMaterial
  | retryable (kind : AttemptFailureKind)

def classifyConnectFailure : ClientStartupError → FailedAttempt
  | .connect wrongGeneration unauthorized =>
    .retryable (if wrongGeneration then .wrongGeneration
      else if unauthorized then .unauthorized else .transport)
  | _ => .fatalLocalMaterial

/-- `connect_with_generation` at its reads.  A read is recorded with the number of calls
that the rotation had made. -/
inductive IdentityLoad (κ : Type) where
  | start
  | certificateRead (subject : κ) (n₁ : Nat)
  | loaded (subject key : κ) (n₁ n₂ : Nat)
  | failed

/-- The rotation, at one of its calls, and the attempts. -/
structure LiveRotation (κ : Type) where
  calls : Nat := 0
  attempts : List (IdentityLoad κ) := []

inductive LiveRotation.Action where
  | rotate
  | attempt
  | read (i : Nat)

section

variable {κ ι : Type} [DecidableEq ι]

/-- `load_client_identity_material` of `startup.rs` goes on with one read. -/
def IdentityLoad.read (m : Material κ ι) (n : Nat) : IdentityLoad κ → Option (IdentityLoad κ)
  | .start => match m.files .clientCert with
    | some (.certificate subject _) => some (.certificateRead subject n)
    | _ => some .failed
  | .certificateRead subject n₁ => match m.files .clientKey with
    | some (.key key) => some (.loaded subject key n₁ n)
    | _ => some .failed
  | .loaded _ _ _ _ | .failed => none

/-- The failure for which an attempt ends before it makes a connection.
`make_client_tunnel_h3_config` takes a certificate and a key that match. -/
def IdentityLoad.failure [DecidableEq κ] : IdentityLoad κ → Option FailedAttempt
  | .loaded subject key _ _ =>
    if subject = key then none else some (classifyConnectFailure .quicConfig)
  | .failed => some (classifyConnectFailure .tlsMaterial)
  | .start | .certificateRead _ _ => none

/-- The certificate was read before its replacement, the fifth call, and the key after its
own, the fourth. -/
def IdentityLoad.Torn : IdentityLoad κ → Prop
  | .loaded _ _ n₁ n₂ => n₁ < 5 ∧ 4 ≤ n₂
  | _ => False

namespace LiveRotation

/-- The directory that was `m`, as the rotation has left it. -/
def material (identityOf : κ → ι) (fresh : κ) (m : Material κ ι) (s : LiveRotation κ) :
    Material κ ι :=
  ((rotateClientIdentity identityOf fresh).after perform s.calls m).2

def system (identityOf : κ → ι) (fresh : κ) (m : Material κ ι) : Lts (LiveRotation κ) Action where
  step s
    | .rotate => some { s with calls := s.calls + 1 }
    | .attempt => some { s with attempts := s.attempts ++ [.start] }
    | .read i => do
      let a ← s.attempts[i]?
      let a' ← a.read (s.material identityOf fresh m) s.calls
      some { s with attempts := s.attempts.set i a' }

variable {identityOf : κ → ι} {k fresh : κ} {m : Material κ ι} {s s' : LiveRotation κ}

/-- What an attempt has read so far, when the rotation has made `calls` calls. -/
def HasRead (k fresh : κ) (calls : Nat) : IdentityLoad κ → Prop
  | .start => True
  | .certificateRead subject n₁ => n₁ ≤ calls ∧ subject = if n₁ < 5 then k else fresh
  | .loaded subject key n₁ n₂ =>
    n₁ ≤ n₂ ∧ subject = (if n₁ < 5 then k else fresh) ∧ key = if n₂ < 4 then k else fresh
  | .failed => False

theorem files_material (s : LiveRotation κ) (fresh : κ) (h : IdentityAgrees identityOf m k) :
    (∃ issuer, (s.material identityOf fresh m).files .clientCert =
      some (.certificate (if s.calls < 5 then k else fresh) issuer)) ∧
    (s.material identityOf fresh m).files .clientKey =
      some (.key (if s.calls < 4 then k else fresh)) := by
  rw [material, after_rotateClientIdentity h]
  obtain ⟨hk, ⟨issuer, hc⟩, -⟩ := h
  obtain hn | hn | hn : s.calls < 4 ∨ s.calls = 4 ∨ 5 ≤ s.calls := by omega
  · rw [Nat.sub_eq_zero_of_le (by omega), if_pos hn, if_pos (by omega)]
    exact ⟨⟨issuer, hc⟩, hk⟩
  · rw [hn]
    exact ⟨⟨issuer, by simpa [replaced] using hc⟩, by simp [replaced]⟩
  · obtain ⟨i, hi⟩ := Nat.exists_eq_add_of_le' hn
    rw [if_neg (by omega), if_neg (by omega), hi]
    cases i <;> simp [replaced]

theorem HasRead.read (hm : IdentityAgrees identityOf m k) {a a' : IdentityLoad κ}
    (h : HasRead k fresh s.calls a)
    (ha : a.read (s.material identityOf fresh m) s.calls = some a') :
    HasRead k fresh s.calls a' := by
  obtain ⟨⟨issuer, hc⟩, hk⟩ := files_material s fresh hm
  cases a with
  | start =>
    simp only [IdentityLoad.read, hc, Option.some.injEq] at ha
    subst ha
    exact ⟨le_rfl, rfl⟩
  | certificateRead subject n₁ =>
    simp only [IdentityLoad.read, hk, Option.some.injEq] at ha
    subst ha
    exact ⟨h.1, h.2, rfl⟩
  | _ => cases ha

theorem HasRead.rotate {calls : Nat} {a : IdentityLoad κ} (h : HasRead k fresh calls a) :
    HasRead k fresh (calls + 1) a := by
  cases a with
  | certificateRead subject n₁ => exact ⟨Nat.le_succ_of_le h.1, h.2⟩
  | _ => exact h

theorem hasRead_step (hm : IdentityAgrees identityOf m k) {action : Action}
    (h : ∀ a ∈ s.attempts, HasRead k fresh s.calls a)
    (hs : (system identityOf fresh m).step s action = some s') :
    ∀ a ∈ s'.attempts, HasRead k fresh s'.calls a := by
  cases action with
  | rotate =>
    cases hs
    exact fun a ha => (h a ha).rotate
  | attempt =>
    cases hs
    exact List.forall_mem_append.mpr ⟨h, List.forall_mem_singleton.mpr trivial⟩
  | read i =>
    obtain ⟨a, hi, hs⟩ := Option.bind_eq_some_iff.mp hs
    obtain ⟨a', ha, hs⟩ := Option.bind_eq_some_iff.mp hs
    cases hs
    intro b hb
    obtain hb | rfl := List.mem_or_eq_of_mem_set hb
    · exact h b hb
    · exact (h a (List.mem_of_getElem? hi)).read hm ha

/-- However the calls of the rotation and the reads of the attempts are interleaved, an attempt
that is not torn loads the old identity or the new one. -/
theorem attempt_loads_one_identity [DecidableEq κ] (identityOf : κ → ι) (k fresh : κ)
    (m : Material κ ι) (hm : IdentityAgrees identityOf m k) (s : LiveRotation κ)
    (hr : (system identityOf fresh m).Reaches {} s) (a : IdentityLoad κ) (ha : a ∈ s.attempts)
    (ht : ¬a.Torn) :
    a.failure = none ∧ ∀ subject key n₁ n₂, a = .loaded subject key n₁ n₂ →
      subject = key ∧ (key = k ∨ key = fresh) := by
  have h : HasRead k fresh s.calls a :=
    hr.invariant (I := fun s => ∀ a ∈ s.attempts, HasRead k fresh s.calls a)
      (fun _ _ _ h _ hs => hasRead_step hm h hs) (fun _ ha => by cases ha) a ha
  cases a with
  | loaded subject key n₁ n₂ =>
    obtain ⟨hn, rfl, rfl⟩ := h
    by_cases h₂ : n₂ < 4
    · rw [if_pos h₂, if_pos (by omega)]
      exact ⟨if_pos rfl, fun _ _ _ _ heq => by cases heq; exact ⟨rfl, .inl rfl⟩⟩
    · have h₁ : ¬n₁ < 5 := fun h₁ => ht ⟨h₁, Nat.le_of_not_lt h₂⟩
      rw [if_neg h₁, if_neg h₂]
      exact ⟨if_pos rfl, fun _ _ _ _ heq => by cases heq; exact ⟨rfl, .inr rfl⟩⟩
  | failed => exact h.elim
  | _ => exact ⟨rfl, fun _ _ _ _ heq => by cases heq⟩

end LiveRotation

end

namespace LiveRotation

/-- The attempt reads the certificate, the key is replaced, and the attempt reads the key. -/
def tornRun : List Action := [.attempt, .read 0, .rotate, .rotate, .rotate, .rotate, .read 0]

theorem torn_attempt_is_fatal :
    ∃ s ∈ (system id 2 sampleMaterial).exec {} tornRun,
      s.attempts.map IdentityLoad.failure = [some .fatalLocalMaterial] :=
  ⟨⟨4, [.loaded 1 2 0 4]⟩, rfl, rfl⟩

/-- One attempt ends before the first replacement, and one begins after the whole rotation. -/
theorem attempts_around_rotation_load_one :
    ∃ s, (system id 2 sampleMaterial).Reaches {} s ∧
      s.attempts = [.loaded 1 1 0 3, .loaded 2 2 9 9] ∧ ∀ a ∈ s.attempts, a.failure = none := by
  have he : (system id 2 sampleMaterial).exec {}
      ([.attempt, .read 0, .rotate, .rotate, .rotate, .read 0] ++ List.replicate 6 .rotate ++
        [.attempt, .read 1, .read 1]) = some ⟨9, [.loaded 1 1 0 3, .loaded 2 2 9 9]⟩ := rfl
  have hr := Lts.Reaches.of_exec he
  refine ⟨_, hr, rfl, fun a ha => (attempt_loads_one_identity id 1 2 sampleMaterial
    sampleMaterial_agrees _ hr a ha ?_).1⟩
  simp only [List.mem_cons, List.not_mem_nil, or_false] at ha
  rcases ha with rfl | rfl <;> simp [IdentityLoad.Torn]

end LiveRotation

end Runewarp.Client
