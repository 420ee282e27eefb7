import Runewarp.Tunnel.ClientTunnel

/-!
# What the replacement hint says

`follow_events` publishes a hint with a generation, a count of interruptions and a pause.
Here the hint is a function of what the task has seen: the states it received, the ends of
subscriptions, and how its attempts to subscribe again went.

The log of outcomes has the newest first.  An episode is what comes between the end of a
subscription and the next one.
-/

namespace Runewarp.Tunnel

/-- What `follow_events` has seen. -/
inductive Outcome (γ : Type) where
  | state (state : TunnelEventState γ)
  /-- The subscription has ended and is dropped. -/
  | ended
  /-- The request of an attempt is open. -/
  | opened
  /-- An attempt has failed, before its request was open or after. -/
  | failed
  /-- GOAWAY has refused the request of an attempt. -/
  | refused
  /-- The connection was lost before the request was open. -/
  | lost
  | incompatible
deriving DecidableEq

namespace Outcome

variable {γ : Type}

/-- The attempt was neither refused nor lost. -/
def interrupts : Outcome γ → Bool
  | .opened | .failed => true
  | _ => false

/-- No new request can start on the connection. -/
def forbids : Outcome γ → Bool
  | .refused | .lost => true
  | _ => false

/-- The episodes of a log, the newest first. -/
def episodes : List (Outcome γ) → List (List (Outcome γ))
  | [] => []
  | .ended :: log => [] :: episodes log
  | outcome :: log => (episodes log).modifyHead (outcome :: ·)

/-- The episodes with an attempt that was neither refused nor lost. -/
def interruptions (log : List (Outcome γ)) : Nat :=
  (episodes log).countP fun episode => episode.any interrupts

variable [DecidableEq γ]

/-- A state of the generation that the connection started with. -/
def isValid (generation : γ) : Outcome γ → Bool
  | .state received => received.serverGeneration = generation
  | _ => false

/-- The last valid state of the current subscription, or of the last one before an attempt was
opened or has failed. -/
def latest (generation : γ) : List (Outcome γ) → Option (TunnelEventState γ)
  | [] => none
  | .state received :: log =>
    if received.serverGeneration = generation then some received else latest generation log
  | .opened :: _ | .failed :: _ => none
  | _ :: log => latest generation log

/-- In the newest episode no valid state has come, and the first attempt was not forbidden. -/
def paused (generation : γ) (log : List (Outcome γ)) : Bool :=
  match episodes log with
  | [] => false
  | episode :: _ =>
    !episode.any (isValid generation) && !episode.getLast?.any forbids

/-! ## One more outcome -/

section

variable {generation : γ} {log : List (Outcome γ)} {episode : List (Outcome γ)}
  {before : List (List (Outcome γ))} {outcome : Outcome γ}

omit [DecidableEq γ] in
theorem episodes_cons (h : outcome ≠ .ended) :
    episodes (outcome :: log) = (episodes log).modifyHead (outcome :: ·) := by
  cases outcome with
  | ended => exact absurd rfl h
  | _ => rfl

omit [DecidableEq γ] in
/-- The newest outcome of the newest episode is the newest of all. -/
theorem head_of_episodes (h : episodes log = (outcome :: episode) :: before) :
    ∃ rest, log = outcome :: rest := by
  cases log with
  | nil => cases h
  | cons newest log =>
    by_cases he : newest = .ended
    · subst he
      cases h
    · rw [episodes_cons he] at h
      cases hl : episodes log with
      | nil =>
        rw [hl] at h
        cases h
      | cons e es =>
        rw [hl] at h
        cases h
        exact ⟨log, rfl⟩

omit [DecidableEq γ] in
theorem interruptions_ended : interruptions (.ended :: log) = interruptions log := by
  simp [interruptions, episodes]

omit [DecidableEq γ] in
theorem interruptions_cons (h : outcome ≠ .ended) (hs : outcome.interrupts = false) :
    interruptions (outcome :: log) = interruptions log := by
  rw [interruptions, interruptions, episodes_cons h]
  cases episodes log with
  | nil => rfl
  | cons e es =>
    rw [List.modifyHead_cons, List.countP_cons, List.countP_cons, List.any_cons, hs,
      Bool.false_or]

omit [DecidableEq γ] in
/-- An attempt counts when it is the first one of its episode that does. -/
theorem interruptions_interrupt (h : outcome.interrupts = true)
    (hl : episodes log = episode :: before) :
    interruptions (outcome :: log) =
      interruptions log + if episode.any interrupts then 0 else 1 := by
  have hne : outcome ≠ .ended := by
    rintro rfl
    cases h
  rw [interruptions, interruptions, episodes_cons hne, hl, List.modifyHead_cons,
    List.countP_cons, List.countP_cons, List.any_cons, h, Bool.true_or, if_pos rfl]
  split <;> rfl

end

end Outcome

/-- What a step of `follow_events` sees. -/
def FollowPhase.observe {γ : Type} : FollowPhase → FollowEvent γ → Option (Outcome γ)
  | .reading, .received (.state state) | .awaiting, .received (.state state) => some (.state state)
  | .reading, .received .incompatible | .awaiting, .received .incompatible
  | .requesting _, .received .incompatible => some .incompatible
  | .interrupted, .go => some .ended
  | .requesting _, .opened => some .opened
  | .requesting _, .received .refused => some .refused
  | .requesting _, .received .lost => some .lost
  | .requesting _, .received .failed => some .failed
  | .awaiting, .received .ended | .awaiting, .received .refused | .awaiting, .received .lost
  | .awaiting, .received .failed => some .failed
  | _, _ => none

/-- A connection with what its `follow_events` has seen. -/
structure HintFollower (γ : Type) where
  tunnel : ClientTunnel γ
  log : List (Outcome γ)
deriving DecidableEq

namespace HintFollower

variable {γ : Type}

inductive Action (γ : Type) where
  | follow (event : FollowEvent γ)
  | session (event : SessionEvent)
  | releaseCredit
  /-- The connection closes. -/
  | close
  /-- The handle is dropped. -/
  | drop
deriving DecidableEq

variable [DecidableEq γ]

/-- After the first snapshot. -/
def new (candidate : Bool) (initial : TunnelEventState γ) : HintFollower γ :=
  ⟨.new candidate initial, [.state initial]⟩

def step (s : HintFollower γ) : Action γ → Option (HintFollower γ)
  | .follow event =>
    (s.tunnel.follow event).map fun tunnel =>
      ⟨tunnel, (s.tunnel.events.observe event).toList ++ s.log⟩
  | .session event => (s.tunnel.sessionStep event).map fun tunnel => { s with tunnel := tunnel }
  | .releaseCredit => some { s with tunnel := s.tunnel.releaseCredit }
  | .close => some { s with tunnel := { s.tunnel with closed := true } }
  | .drop => some { s with tunnel := s.tunnel.drop }

def system : Lts (HintFollower γ) (Action γ) := ⟨step⟩

/-! ## The hint and the log -/

section

open Outcome

variable {generation : γ} {log : List (Outcome γ)} {hint : ReplacementHint γ} {flag : Bool}
  {outcome : Outcome γ}

/-- The hint is the one that belongs to a log. -/
structure HintIs (generation : γ) (hint : ReplacementHint γ) (log : List (Outcome γ)) : Prop where
  names : hint.generation = (latest generation log).bind TunnelEventState.hintedReplacement
  counts : hint.interruptions = .ofNat (interruptions log)
  pauses : hint.paused = paused generation log

/-- In the newest episode there were attempts only, and `flag` says whether there was one. -/
def Attempts (log : List (Outcome γ)) (flag : Bool) : Prop :=
  ∃ episode before, episodes log = episode :: before ∧
    (∀ outcome ∈ episode, outcome.interrupts = true) ∧ flag = !episode.isEmpty

/-- Attempts that were not forbidden leave the hint paused. -/
theorem paused_of_attempts {episode : List (Outcome γ)} {before : List (List (Outcome γ))}
    (hlo : episodes log = episode :: before)
    (ha : ∀ outcome ∈ episode, outcome.interrupts = true) :
    Outcome.paused generation log = true := by
  have hv : ∀ o ∈ episode, o.isValid generation = false := by
    intro o ho
    have hi := ha o ho
    cases o <;> first | rfl | cases hi
  have hl : episode.getLast?.any forbids = false := by
    cases hg : episode.getLast? with
    | none => rfl
    | some o =>
      have hi := ha o (List.mem_of_getLast? hg)
      cases o <;> first | rfl | cases hi
  rw [Outcome.paused, hlo]
  simp only [hl, Bool.not_false, Bool.and_true, Bool.not_eq_true']
  exact List.any_eq_false.mpr fun o ho => by simp [hv o ho]

theorem HintIs.valid (h : HintIs generation hint log) {received : TunnelEventState γ}
    (hv : received.serverGeneration = generation) :
    HintIs generation
      { hint with generation := received.hintedReplacement, paused := false }
      (.state received :: log) := by
  have he : Outcome.state received ≠ .ended := nofun
  refine ⟨?_, by rw [h.counts, interruptions_cons he rfl], ?_⟩
  · rw [latest, if_pos hv]
    rfl
  · rw [Outcome.paused, episodes_cons he]
    cases episodes log with
    | nil => rfl
    | cons episode before => simp [isValid, hv]

theorem HintIs.unchanged (h : HintIs generation hint log) (he : outcome ≠ .ended)
    (hi : outcome.interrupts = false) (hf : outcome.forbids = false)
    (hv : outcome.isValid generation = false) : HintIs generation hint (outcome :: log) := by
  refine ⟨h.names.trans ?_, by rw [h.counts, interruptions_cons he hi],
    h.pauses.trans ?_⟩
  · congr 1
    cases outcome with
    | state received => exact (if_neg (of_decide_eq_false hv)).symm
    | opened | failed => cases hi
    | _ => rfl
  · rw [Outcome.paused, Outcome.paused, episodes_cons he]
    cases episodes log with
    | nil => rfl
    | cons episode before =>
      cases episode with
      | nil => simp [hv, hf]
      | cons o episode => simp [hv, List.getLast?_cons_cons]

theorem HintIs.ended (h : HintIs generation hint log) :
    HintIs generation { hint with paused := true } (.ended :: log) :=
  ⟨h.names, by rw [h.counts, interruptions_ended], rfl⟩

omit [DecidableEq γ] in
theorem attempts_ended : Attempts (.ended :: log) false :=
  ⟨[], episodes log, rfl, nofun, rfl⟩

theorem HintIs.interrupt (h : HintIs generation hint log) (ha : Attempts log flag)
    (hi : outcome.interrupts = true) :
    HintIs generation
      (if flag then hint
        else { hint with generation := none, interruptions := hint.interruptions + 1 })
      (outcome :: log) ∧ Attempts (outcome :: log) true := by
  obtain ⟨episode, before, hlo, hal, rfl⟩ := ha
  have he : outcome ≠ .ended := by
    rintro rfl
    cases hi
  have hn : episodes (outcome :: log) = (outcome :: episode) :: before := by
    rw [episodes_cons he, hlo]
    rfl
  have ha' : ∀ o ∈ outcome :: episode, o.interrupts = true :=
    List.forall_mem_cons.mpr ⟨hi, hal⟩
  have hl : latest generation (outcome :: log) = none := by
    cases outcome <;> first | rfl | cases hi
  have hc := interruptions_interrupt hi hlo
  refine ⟨?_, outcome :: episode, before, hn, ha', rfl⟩
  have hs : hint.paused = Outcome.paused generation (outcome :: log) := by
    rw [h.pauses, paused_of_attempts hlo hal, paused_of_attempts hn ha']
  cases episode with
  | nil => exact ⟨by rw [hl]; rfl, by rw [hc, UInt64.ofNat_add, ← h.counts]; rfl, hs⟩
  | cons o episode =>
    -- an earlier attempt of the episode has cleared the hint
    obtain ⟨rest, rfl⟩ := head_of_episodes hlo
    have ho := hal o (.head _)
    have hno : latest generation (o :: rest) = none := by
      cases o <;> first | rfl | cases ho
    refine ⟨?_, ?_, hs⟩
    · rw [hl]
      exact h.names.trans (by rw [hno])
    · rw [hc, List.any_cons, ho]
      exact h.counts

theorem HintIs.forbid (h : HintIs generation hint log) (ha : Attempts log flag)
    (hf : outcome.forbids = true) :
    HintIs generation (if flag then hint else { hint with paused := false }) (outcome :: log) := by
  obtain ⟨episode, before, hlo, hal, rfl⟩ := ha
  have he : outcome ≠ .ended := by
    rintro rfl
    cases hf
  have hi : outcome.interrupts = false := by
    cases outcome <;> first | rfl | cases hf
  have hl : latest generation (outcome :: log) = latest generation log := by
    cases outcome <;> first | rfl | cases hf
  have hc : interruptions (outcome :: log) = interruptions log :=
    interruptions_cons he hi
  have hn : episodes (outcome :: log) = (outcome :: episode) :: before := by
    rw [episodes_cons he, hlo]
    rfl
  cases episode with
  | nil =>
    refine ⟨h.names.trans (by rw [hl]), hc ▸ h.counts, ?_⟩
    rw [Outcome.paused, hn]
    simp [hf]
  | cons o episode =>
    refine ⟨h.names.trans (by rw [hl]), hc ▸ h.counts, ?_⟩
    have hv : outcome.isValid generation = false := by
      cases outcome <;> first | rfl | cases hf
    refine h.pauses.trans ?_
    rw [Outcome.paused, Outcome.paused, hn, hlo]
    simp [hv, List.getLast?_cons_cons]

/-! ## Steps and runs -/

/-- The flag of `resubscribe`, while it runs. -/
def attempting : FollowPhase → Option Bool
  | .resubscribing flag | .sleeping flag | .requesting flag => some flag
  | .awaiting => some true
  | _ => none

/-- The hint belongs to the log, and a state of another generation has closed the connection. -/
structure Agrees (generation : γ) (t : ClientTunnel γ) (log : List (Outcome γ)) : Prop where
  own : t.generation = generation
  hint : HintIs generation t.hint.value log
  attempts : ∀ flag, attempting t.events = some flag → Attempts log flag
  foreign : ∀ received, .state received ∈ log → received.serverGeneration ≠ generation →
    t.closed = true

variable {t t' : ClientTunnel γ}

theorem Agrees.quiet (h : Agrees generation t log) (ho : t'.generation = t.generation)
    (hh : t'.hint = t.hint) (hc : t.closed = true → t'.closed = true)
    (he : ∀ flag, attempting t'.events = some flag → attempting t.events = some flag) :
    Agrees generation t' log where
  own := ho.trans h.own
  hint := hh ▸ h.hint
  attempts flag hf := h.attempts flag (he flag hf)
  foreign received hm hne := hc (h.foreign received hm hne)

theorem Agrees.foreign_cons (h : Agrees generation t log)
    (hs : ∀ received, outcome = .state received → received.serverGeneration = generation) :
    ∀ received, .state received ∈ outcome :: log → received.serverGeneration ≠ generation →
      t.closed = true := by
  intro received hm hne
  rcases List.mem_cons.mp hm with heq | hm
  · exact absurd (hs received heq.symm) hne
  · exact h.foreign received hm hne

theorem Agrees.violate (h : Agrees generation t log) (he : outcome ≠ .ended)
    (hi : outcome.interrupts = false) (hf : outcome.forbids = false)
    (hv : outcome.isValid generation = false) :
    Agrees generation t.violate (outcome :: log) where
  own := h.own
  hint := h.hint.unchanged he hi hf hv
  attempts := nofun
  foreign _ _ _ := rfl

theorem Agrees.acceptState (h : Agrees generation t log) (received : TunnelEventState γ) :
    Agrees generation (t.acceptState received) (.state received :: log) := by
  unfold ClientTunnel.acceptState
  have ho : t.state.serverGeneration = generation := h.own
  split
  next hne =>
    rw [ho] at hne
    exact h.violate nofun rfl rfl (decide_eq_false hne)
  next hs =>
    rw [ho, not_not] at hs
    refine ⟨hs, h.hint.valid hs, nofun, h.foreign_cons ?_⟩
    rintro _ ⟨⟩
    exact hs

theorem Agrees.countInterruption (h : Agrees generation t log) (ha : Attempts log flag)
    (hi : outcome.interrupts = true) {events : FollowPhase}
    (he : attempting events = some true) :
    Agrees generation { t.countInterruption flag with events := events } (outcome :: log) := by
  obtain ⟨hh, ha'⟩ := h.hint.interrupt ha hi
  have hs : ∀ received, outcome = .state received → received.serverGeneration = generation := by
    rintro _ rfl
    cases hi
  have hn : ∀ b, attempting events = some b → Attempts (outcome :: log) b := by
    intro b hb
    rw [he] at hb
    cases hb
    exact ha'
  cases flag with
  | true => exact ⟨h.own, hh, hn, h.foreign_cons hs⟩
  | false => exact ⟨h.own, hh, hn, h.foreign_cons hs⟩

theorem Agrees.refuse (h : Agrees generation t log) (ha : Attempts log flag)
    (hf : outcome.forbids = true) :
    Agrees generation (t.refuse flag) (outcome :: log) := by
  have hh := h.hint.forbid ha hf
  have hs : ∀ received, outcome = .state received → received.serverGeneration = generation := by
    rintro _ rfl
    cases hf
  cases flag with
  | true => exact ⟨h.own, hh, nofun, h.foreign_cons hs⟩
  | false => exact ⟨h.own, hh, nofun, h.foreign_cons hs⟩

theorem Agrees.read (h : Agrees generation t log) (hp : t.events = .reading)
    (received : Received γ) :
    Agrees generation (t.read received)
      ((t.events.observe (.received received)).toList ++ log) := by
  rw [hp]
  cases received with
  | state received => exact h.acceptState received
  | keepalive => exact h
  | incompatible => exact h.violate nofun rfl rfl rfl
  | _ => exact h.quiet rfl rfl id nofun

theorem Agrees.subscribed_unopened (h : Agrees generation t log) {flag : Bool}
    (hp : t.events = .requesting flag) {received : Received γ}
    (he : received.isError = true) :
    Agrees generation (t.subscribed flag received)
      ((t.events.observe (.received received)).toList ++ log) := by
  have ha : Attempts log flag := h.attempts flag (by rw [hp]; rfl)
  rw [hp]
  cases received with
  | incompatible => exact h.violate nofun rfl rfl rfl
  | refused | lost => exact h.refuse ha rfl
  | failed => exact h.countInterruption ha rfl rfl
  | _ => cases he

theorem Agrees.subscribed_opened (h : Agrees generation t log) (hp : t.events = .awaiting)
    (received : Received γ) :
    Agrees generation (t.subscribed true received)
      ((t.events.observe (.received received)).toList ++ log) := by
  have ha : Attempts log true := h.attempts true (by rw [hp]; rfl)
  rw [hp]
  cases received with
  | state received => exact h.acceptState received
  | keepalive => exact h
  | incompatible => exact h.violate nofun rfl rfl rfl
  | ended | failed => exact h.countInterruption ha rfl rfl
  | _ =>
    -- the interruption was counted when the request was opened
    exact ⟨h.own, (h.hint.interrupt ha rfl).1, nofun, h.foreign_cons nofun⟩

theorem Agrees.follow {event : FollowEvent γ} (h : Agrees generation t log)
    (hs : t.follow event = some t') :
    Agrees generation t' ((t.events.observe event).toList ++ log) := by
  unfold ClientTunnel.follow at hs
  split at hs
  next received hp =>
    cases hs
    exact h.read hp received
  next hp =>
    cases hs
    rw [hp]
    refine ⟨h.own, h.hint.ended, ?_, h.foreign_cons nofun⟩
    rintro _ ⟨⟩
    exact attempts_ended
  next flag hp =>
    cases hs
    rw [hp]
    refine h.quiet rfl rfl id fun b hb => ?_
    dsimp only at hb
    split at hb
    · cases hb
    · rw [hp]
      exact hb
  next flag hp =>
    cases hs
    rw [hp]
    refine h.quiet rfl rfl id fun b hb => ?_
    rw [hp]
    exact hb
  next flag hp =>
    cases hs
    have ha : Attempts log flag := h.attempts flag (by rw [hp]; rfl)
    rw [hp]
    exact h.countInterruption ha rfl rfl
  next flag received hp =>
    split at hs
    next he =>
      cases hs
      exact h.subscribed_unopened hp he
    next => cases hs
  next received hp =>
    cases hs
    exact h.subscribed_opened hp received
  next => cases hs
  next hf =>
    split at hs
    next => cases hs
    next =>
      cases hs
      have ho : t.events.observe (.abort : FollowEvent γ) = none := by
        cases t.events <;> rfl
      rw [ho]
      exact h.quiet rfl rfl id nofun
  next => cases hs

theorem Agrees.sessionStep {event : SessionEvent} (h : Agrees generation t log)
    (hs : t.sessionStep event = some t') : Agrees generation t' log := by
  unfold ClientTunnel.sessionStep at hs
  split at hs
  next =>
    split at hs
    next => cases hs
    next =>
      cases hs
      exact h.quiet rfl rfl id fun _ => id
    next =>
      cases hs
      exact h.quiet rfl rfl (fun _ => rfl) fun _ => id
  iterate 2
    next =>
      cases hs
      exact h.quiet rfl rfl (fun _ => rfl) fun _ => id
  iterate 2
    next =>
      split at hs
      next => cases hs
      next =>
        cases hs
        exact h.quiet rfl rfl id fun _ => id
  next => cases hs

variable {s : HintFollower γ}

end

end HintFollower

end Runewarp.Tunnel
