import Runewarp.Lib.Progress
import Runewarp.Tunnel.Withdrawal

/-!
# Closing a withdrawn connection

`close_after_quiescence` waits for a commit, for a moment without Visitor work, and then until
a `204` has completed or no valid request waits for one; only then it sleeps, and after the
sleep the driver closes the connection.  The two values of the last wait are read one after
the other, so what the timer has seen may be old.  A change that it has not seen wakes it.
-/

namespace Runewarp.Tunnel

/-- The post-quiescence timer has started. -/
def CloseTimer.started : CloseTimer → Bool
  | .sleeping | .elapsed => true
  | _ => false

namespace ServerTunnel

/-- What a step means to the timer. -/
inductive TimerMove (s : ServerTunnel) : ServerTunnel → Prop where
  | timer : s.driver.CloseMove s.shared d → TimerMove s { s with driver := d }
  | request : s.requests[i]? = some r → RequestPhase.StepSpec s.shared sh r.phase p →
      TimerMove s { s with shared := sh, requests := s.requests.set i { r with phase := p } }
  | other : t.shared.withdrawalWaiters = s.shared.withdrawalWaiters ∧
        t.shared.confirmed = s.shared.confirmed →
      tally (·.phase.waiting) t.requests = tally (·.phase.waiting) s.requests →
      t.driver.close = s.driver.close → t.driver.confirmedSeen = s.driver.confirmedSeen →
      t.driver.waitersSeen = s.driver.waitersSeen → TimerMove s t

variable {s t : ServerTunnel} {a : Action}

theorem timerMove_of_step (h : system.step s a = some t) : TimerMove s t := by
  cases move_of_step h with
  | driver hd =>
    obtain ⟨hm, rfl⟩ | ⟨hc, hcs, hws⟩ := hd.timer
    · exact .timer hm
    · exact .other hd.watches rfl hc hcs hws
  | accept => exact .other ⟨rfl, rfl⟩ (by simp) rfl rfl rfl
  | request hi _ hsp => exact .request hi hsp
  | openStep _ _ hsp | create _ hsp => exact .other hsp.watches rfl rfl rfl rfl
  | @stream _ _ _ e => exact .other (by cases e <;> exact ⟨rfl, rfl⟩) rfl rfl rfl rfl
  | _ => exact .other ⟨rfl, rfl⟩ rfl rfl rfl rfl

/-! ## What the timer has seen -/

/-- The connection is withdrawn and has no Visitor work. -/
def Quiescent (s : ServerTunnel) : Prop :=
  s.shared.withdrawn = true ∧ s.shared.visitorWork = 0

/-- A `204` has completed. -/
def Completed (s : ServerTunnel) : Prop := ∃ r ∈ s.requests, r.phase = .answered true

structure TimerInv (s : ServerTunnel) : Prop where
  waiters : s.shared.withdrawalWaiters.value = tally (·.phase.waiting) s.requests
  confirmedSeen : s.driver.confirmedSeen ≤ s.shared.confirmed.version
  waitersSeen : s.driver.waitersSeen ≤ s.shared.withdrawalWaiters.version
  /-- What it has read of the confirmation still holds if it has not changed. -/
  confirmedRead : s.driver.close = .readWaiters ∨ s.driver.close = .awaitChange →
    s.driver.confirmedSeen = s.shared.confirmed.version → s.shared.confirmed.value = false
  waitersRead : s.driver.close = .awaitChange →
    s.driver.waitersSeen = s.shared.withdrawalWaiters.version →
    s.shared.withdrawalWaiters.value ≠ 0
  committed : s.driver.close ≠ .awaitWithdrawal → s.shared.withdrawn = true

theorem TimerInv.closeMove (h : s.TimerInv) {d : Driver} (hd : s.driver.CloseMove s.shared d) :
    TimerInv { s with driver := d } := by
  have committed : ∀ {c}, s.driver.close = c → c ≠ .awaitWithdrawal → s.shared.withdrawn = true :=
    fun hc hn => h.committed (hc ▸ hn)
  cases hd with
  | withdrawn hc hw =>
    exact ⟨h.waiters, h.confirmedSeen, h.waitersSeen, by simp, by simp, fun _ => hw⟩
  | quiescent hc =>
    exact ⟨h.waiters, le_rfl, le_rfl, by simp, by simp,
      fun _ => committed hc (by simp)⟩
  | confirmed hc =>
    exact ⟨h.waiters, le_rfl, h.waitersSeen, by simp, by simp,
      fun _ => committed hc (by simp)⟩
  | unconfirmed hc hv =>
    exact ⟨h.waiters, le_rfl, h.waitersSeen, fun _ _ => hv, by simp,
      fun _ => committed hc (by simp)⟩
  | alone hc =>
    exact ⟨h.waiters, h.confirmedSeen, le_rfl, by simp, by simp,
      fun _ => committed hc (by simp)⟩
  | waits hc hv =>
    exact ⟨h.waiters, h.confirmedSeen, le_rfl, fun _ => h.confirmedRead (.inl hc),
      fun _ _ => hv, fun _ => committed hc (by simp)⟩
  | wakes hc | elapses hc =>
    exact ⟨h.waiters, h.confirmedSeen, h.waitersSeen, by simp, by simp,
      fun _ => committed hc (by simp)⟩

theorem withdrawn_of_step (hs : system.step s a = some t) (hw : s.shared.withdrawn = true) :
    t.shared.withdrawn = true := by
  cases move_of_step hs with
  | driver hd => exact hd.withdrawn.trans hw
  | request _ _ h => exact h.withdrawn.mpr (.inl hw)
  | openStep _ _ h | create _ h => exact h.withdrawn.trans hw
  | stream => simpa using hw
  | _ => exact hw

theorem TimerInv.step (h : s.TimerInv) (hs : system.step s a = some t) : t.TimerInv := by
  have hw := withdrawn_of_step hs
  cases timerMove_of_step hs with
  | timer hd => exact h.closeMove hd
  | @request i r sh p hi hsp =>
    obtain ⟨hle, hst⟩ := tally_set (·.phase.waiting) { r with phase := p } hi
    have hwa := h.waiters
    have hv := hsp.waiters (by omega)
    refine ⟨?_, ?_, ?_, ?_, ?_, fun hc => hw (h.committed hc)⟩
    · simp only at hst ⊢
      omega
    · obtain hc | ⟨-, -, hlt⟩ := hsp.confirmed
      · exact hc ▸ h.confirmedSeen
      · exact h.confirmedSeen.trans (Nat.le_of_lt hlt)
    · obtain hc | hlt := hsp.version
      · exact hc ▸ h.waitersSeen
      · exact h.waitersSeen.trans (Nat.le_of_lt hlt)
    · intro hc hseen
      obtain heq | ⟨-, -, hlt⟩ := hsp.confirmed
      · dsimp only at hseen ⊢
        rw [heq] at hseen ⊢
        exact h.confirmedRead hc hseen
      · exact absurd hseen (Nat.ne_of_lt (Nat.lt_of_le_of_lt h.confirmedSeen hlt))
    · intro hc hseen
      obtain heq | hlt := hsp.version
      · dsimp only at hseen ⊢
        rw [heq] at hseen ⊢
        exact h.waitersRead hc hseen
      · exact absurd hseen (Nat.ne_of_lt (Nat.lt_of_le_of_lt h.waitersSeen hlt))
  | other hsw ht hc hcs hws =>
    refine ⟨?_, ?_, ?_, ?_, ?_, fun hc' => hw (h.committed (hc ▸ hc'))⟩
    · rw [hsw.1, ht]
      exact h.waiters
    · rw [hcs, hsw.2]
      exact h.confirmedSeen
    · rw [hws, hsw.1]
      exact h.waitersSeen
    · rw [hc, hcs, hsw.2]
      exact h.confirmedRead
    · rw [hc, hws, hsw.1]
      exact h.waitersRead

theorem not_confirmed (hr : system.Steps (fun u _ => ¬ u.Completed) {} s) :
    s.shared.confirmed.value = false := by
  refine hr.invariant (I := fun s => s.shared.confirmed.value = false) ?_ rfl
  intro u a v hf hn hs
  cases timerMove_of_step hs with
  | timer => exact hf
  | request hi hsp =>
    obtain heq | ⟨hp, -⟩ := hsp.confirmed
    · exact heq ▸ hf
    · exact absurd ⟨_, List.mem_of_getElem? hi, hp⟩ hn
  | other hsw => exact hsw.2 ▸ hf

/-! ## The start of the timer -/

/-- When it starts, a `204` is recorded or no registered request is left. -/
theorem TimerInv.starts (h : s.TimerInv) (hs : system.step s a = some t)
    (hn : s.driver.close.started = false) (ht : t.driver.close.started = true) :
    s.shared.confirmed.value = true ∨ ∀ r ∈ s.requests, r.phase.waiting = 0 := by
  cases timerMove_of_step hs with
  | timer hd =>
    cases hd with
    | confirmed _ hv => exact .inl hv
    | alone _ hv =>
      refine .inr fun r hr => ?_
      have hz := weight_eq_zero (h.waiters.symm.trans hv) hr
      exact hz
    | elapses hc =>
      rw [hc] at hn
      cases hn
    | withdrawn | quiescent | unconfirmed | waits | wakes => cases ht
  | request => exact absurd (hn.symm.trans ht) (by decide)
  | other _ _ hc => exact absurd ((hc ▸ hn).symm.trans ht) (by decide)

/-- There is no Visitor work, a `204` has completed or no registered request is left, and the
connection is neither shut down nor lost. -/
structure AtRest (s : ServerTunnel) : Prop where
  work : s.shared.visitorWork = 0
  requests : s.shared.withdrawalWaiters.value = 0 ∨ s.shared.confirmed.value = true
  driver : s.driver.phase = .selecting

/-- How many steps the timer has to make at most.  Where a `204` completed after the timer read
that there was none, it comes back to read it. -/
def CloseTimer.rank : CloseTimer → Bool → Nat
  | .awaitWithdrawal, _ => 5
  | .awaitQuiescence, _ => 4
  | .readWaiters, true | .awaitChange, false => 3
  | .awaitChange, true | .readConfirmed, false => 2
  | .readConfirmed, true | .readWaiters, false => 1
  | .sleeping, _ | .elapsed, _ => 0

/-- At rest a timer that has not started can go on. -/
theorem TimerInv.canMove (h : s.TimerInv) (hw : s.shared.withdrawn = true) (hq : s.AtRest)
    (hn : s.driver.close.started = false) :
    (system.step s (.driver .closeTimer)).isSome = true := by
  suffices hd : (s.driver.closeStep s.shared).isSome = true by
    simpa [system, ServerTunnel.step, Driver.step, hq.driver] using hd
  cases hc : s.driver.close with
  | awaitWithdrawal => simp [Driver.closeStep, hc, hw]
  | awaitQuiescence => simp [Driver.closeStep, hc, hq.work]
  | awaitChange =>
    -- What it read, that there is no `204` and a request waits, is no longer so.
    have hne : s.driver.confirmedSeen ≠ s.shared.confirmed.version ∨
        s.driver.waitersSeen ≠ s.shared.withdrawalWaiters.version := by
      by_contra hno
      rw [not_or, not_not, not_not] at hno
      have hv := h.confirmedRead (.inr hc) hno.1
      exact hq.requests.elim (h.waitersRead hc hno.2) (by simp [hv])
    simp [Driver.closeStep, hc, hne]
  | readConfirmed | readWaiters => simp [Driver.closeStep, hc]
  | sleeping | elapsed => simp [hc, CloseTimer.started] at hn

end ServerTunnel

end Runewarp.Tunnel
