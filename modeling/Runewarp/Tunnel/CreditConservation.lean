import Runewarp.Tunnel.VisitorCredits

/-!
# Visitor credit is conserved

No permit of the budget is lost or made: what the semaphore has and what the
connections hold is the budget.  On each connection `held`, and with it the stream
limit, is the number of idle permits and of streams that have not been lowered.

A stream is lowered by its last half, in a step of its own.  A stream both of whose
halves are being dropped still counts until then, and another call may have the mutex
in between.
-/

namespace Runewarp.Tunnel

namespace VisitorCredits

/-- The permit an acquisition has returned. -/
def Offer.permits : Offer → Nat
  | .none => 0
  | .acquired | .refused => 1

/-- The permits a connection holds: one that was acquired, the idle ones, and one for
each stream that has not given it back. -/
def permits (c : VisitorCredits) : Nat :=
  Offer.permits c.offer + c.idle + tally (·.resource.second) c.leases

structure Balanced (c : VisitorCredits) : Prop where
  held : c.held = (if c.releasing then 0 else c.idle) + tally StreamLease.unlowered c.leases
  limit : c.limit = c.held
  active : c.active = tally (·.resource.first) c.leases
  sound : ∀ l ∈ c.leases, l.Sound
  maintaining : c.releasing = true ∨ c.closed = true → c.maintaining = false
  emptied : c.closed = true → c.releasing = false → c.idle = 0

theorem balanced_new : Balanced {} := by
  constructor <;> simp

/-- What a step can do. -/
structure StepSpec (c : VisitorCredits) (budget : Semaphore Nat) (c' : VisitorCredits)
    (budget' : Semaphore Nat) : Prop where
  balanced : c'.Balanced
  stock : budget'.stock + c'.permits = budget.stock + c.permits
  closed : c.closed = true → c'.closed = true
  shrinks : c.maintaining = false → c'.maintaining = false ∧ c'.idle ≤ c.idle

variable {c c' : VisitorCredits} {budget budget' : Semaphore Nat}

/-- The permits change hands between the connection and the budget, and `held` and the
streams are left alone. -/
theorem Balanced.offered (h : c.Balanced) {o : Offer}
    (hs : budget'.stock + Offer.permits o = budget.stock + Offer.permits c.offer) :
    StepSpec c budget { c with offer := o } budget' := by
  refine ⟨{ h with }, ?_, id, fun hm => ⟨hm, le_rfl⟩⟩
  simp only [permits]
  omega

theorem Balanced.kept (h : c.Balanced) (hf : c.releasing = false) (ho : c.offer = .acquired)
    (hm : c.maintaining = true) : StepSpec c budget c.keep budget := by
  have hop : c.closed = false := by
    by_contra hc
    simp [h.maintaining (.inr (by simpa using hc))] at hm
  have hh := h.held
  simp only [hf, Bool.false_eq_true, if_false] at hh
  refine ⟨{ h with held := ?_, limit := rfl, emptied := ?_ }, ?_, id, ?_⟩
  · simp only [keep, setLimit, hf, Bool.false_eq_true, if_false]
    omega
  · intro hc
    simp [keep, setLimit, hop] at hc
  · simp only [permits, keep, setLimit, ho, Offer.permits]
    omega
  · intro hn
    simp [hm] at hn

/-- A stream is assigned a permit that is at hand: an idle one, or a new one for which
`held` has been raised. -/
theorem Balanced.leased (h : c.Balanced) (hf : c.releasing = false) (ho : c.closed = false)
    {d : VisitorCredits} (hd : d = { c with idle := d.idle, held := d.held, limit := d.limit })
    (hh : d.held + c.idle = c.held + d.idle + 1) (hl : d.limit = d.held)
    (hi : d.idle ≤ c.idle) (hst : budget'.stock + d.idle + 1 = budget.stock + c.idle) :
    StepSpec c budget d.lease budget' := by
  have hn : StreamLease.unlowered {} = 1 := rfl
  have hfi : ResourcePhase.first .held = 1 := rfl
  have hs : ResourcePhase.second .held = 1 := rfl
  have hco := h.held
  have ha := h.active
  simp only [hf, Bool.false_eq_true, if_false] at hco
  rw [hd]
  refine ⟨{ h with held := ?_, limit := hl, active := ?_, sound := ?_, emptied := ?_ },
    ?_, id, fun hm => ⟨hm, hi⟩⟩
  · simp only [lease, hf, Bool.false_eq_true, if_false, tally_concat]
    omega
  · simp only [lease, tally_concat]
    omega
  · exact forall_mem_concat h.sound StreamLease.sound_new
  · intro hc
    simp [lease, ho] at hc
  · simp only [permits, lease, tally_concat]
    omega

theorem Balanced.assigned (h : c.Balanced) (hf : c.releasing = false)
    (budget : Semaphore Nat) :
    StepSpec c budget ((c.assign budget).getD (c, budget)).1
      ((c.assign budget).getD (c, budget)).2 := by
  have hs : StepSpec c budget c budget := h.offered (o := c.offer) rfl
  unfold assign
  split
  next => exact hs
  next ho =>
    have ho : c.closed = false := by simpa using ho
    split
    next hi =>
      refine h.leased hf ho (d := { c with idle := c.idle - 1 }) rfl ?_ h.limit ?_ ?_
      all_goals
        simp only [Option.getD_some]
        omega
    next =>
      split
      next budget' ha =>
        have hst := Semaphore.stock_tryAcquire ha
        refine h.leased hf ho (d := setLimit { c with held := c.held + 1 }) rfl ?_ rfl ?_ ?_
        all_goals
          simp only [setLimit, Option.getD_some]
          omega
      next => exact hs

theorem Balanced.released (h : c.Balanced) (hf : c.releasing = false) {closed : Bool}
    (hc : c.closed = true → closed = true) :
    StepSpec c budget (releaseIdle { c with closed := closed }) budget := by
  have hh := h.held
  simp only [hf, Bool.false_eq_true, if_false] at hh
  refine ⟨{ h with held := ?_, limit := rfl, maintaining := fun _ => rfl, emptied := ?_ }, rfl,
    hc, fun _ => ⟨rfl, le_rfl⟩⟩
  · simp only [releaseIdle, setLimit, if_true]
    omega
  · intro _ hr
    simp [releaseIdle, setLimit] at hr

theorem Balanced.droppedIdle (h : c.Balanced) (hr : c.releasing = true) (hi : 0 < c.idle) :
    StepSpec c budget { c with idle := c.idle - 1 } budget.release := by
  have hh := h.held
  simp only [hr, if_true] at hh
  refine ⟨{ h with held := ?_, emptied := ?_ }, ?_, id, fun hm => ⟨hm, Nat.sub_le _ _⟩⟩
  · simp only [hr, if_true]
    omega
  · intro _ hf
    simp [hr] at hf
  · simp only [permits, Semaphore.stock_release]
    omega

theorem Balanced.idleReleased (h : c.Balanced) (hr : c.releasing = true) (hi : c.idle = 0) :
    StepSpec c budget { c with releasing := false, idleStopped := true } budget := by
  have hh := h.held
  simp only [hr, if_true] at hh
  have hm := h.maintaining (.inl hr)
  refine ⟨{ h with held := ?_, maintaining := fun _ => hm, emptied := fun _ _ => hi },
    rfl, id, fun hm => ⟨hm, le_rfl⟩⟩
  simp only [hi, Bool.false_eq_true, if_false]
  exact hh

/-- What a lease has at most on each of the counters it is counted in. -/
theorem Balanced.lowered (h : c.Balanced) {i : Nat} {l : StreamLease} (hi : c.leases[i]? = some l) :
    l.unlowered ≤ c.held ∧ l.resource.first ≤ c.active := by
  have hl : l ∈ c.leases := List.mem_of_getElem? hi
  have hhe := weight_le_tally StreamLease.unlowered hl
  have hac := weight_le_tally (fun l => l.resource.first) hl
  have hh := h.held
  have ha := h.active
  exact ⟨by omega, by omega⟩

/-- A lease moves, and the counters it is counted in move with it. -/
theorem Balanced.moved (h : c.Balanced) {i : Nat} {l l' : StreamLease} {e : LeaseEvent}
    (hi : c.leases[i]? = some l) (hst : l.step e = some l') (held active : Nat)
    (hhe : held + l.unlowered = c.held + l'.unlowered)
    (hac : active + l.resource.first = c.active + l'.resource.first)
    (hso : budget'.stock + l'.resource.second = budget.stock + l.resource.second) :
    let d := { c with leases := c.leases.set i l', held := held, limit := held, active := active }
    StepSpec c budget d budget' := by
  have hl : l.Sound := h.sound l (List.mem_of_getElem? hi)
  have hs' := tally_set StreamLease.unlowered l' hi
  have hse := tally_set (fun l => l.resource.first) l' hi
  have hs := tally_set (fun l => l.resource.second) l' hi
  have hh := h.held
  have ha := h.active
  refine ⟨{ h with held := ?_, limit := rfl, active := ?_, sound := ?_ }, ?_, id,
    fun hm => ⟨hm, le_rfl⟩⟩
  · simp only
    omega
  · simp only at hse ⊢
    omega
  · exact forall_mem_set h.sound (hl.step hst)
  · simp only [permits] at hs ⊢
    omega

theorem Balanced.stream (h : c.Balanced) {self i : Nat} {e : LeaseEvent}
    (hs : c.step self budget (.stream i e) = some (c', budget')) :
    StepSpec c budget c' budget' := by
  simp only [step] at hs
  split at hs
  next => simp at hs
  next l hi =>
    obtain ⟨l', hl', hs⟩ := Option.bind_eq_some_iff.mp hs
    have hl : l.Sound := h.sound l (List.mem_of_getElem? hi)
    have hlo := (hl.step_unlowered hl').2
    obtain ⟨hf, hse⟩ := hl.resource_step hl'
    obtain ⟨hh, ha⟩ := h.lowered hi
    have hli := h.limit
    cases e with
    | beforeDrop half =>
      obtain ⟨-, ⟨⟩⟩ := Option.ite_some_none_eq_some.mp hs
      simp only [reduceCtorEq, if_true, if_false] at hlo hf hse
      exact h.moved hi hl' (c.held - 1) c.active (by omega) (by omega) (by omega)
    | releaseFirst =>
      cases hs
      simp only [reduceCtorEq, Bool.false_eq_true, if_true, if_false] at hlo hf hse
      rw [hli]
      exact h.moved hi hl' c.held (c.active - 1) (by omega) (by omega) (by omega)
    | releaseSecond =>
      cases hs
      have hst := budget.stock_release
      simp only [reduceCtorEq, Bool.false_eq_true, if_true, if_false] at hlo hf hse
      rw [hli]
      exact h.moved hi hl' c.held c.active (by omega) (by omega) (by omega)
    | droppingHalf half | dropTransport half | dropLease half =>
      cases hs
      simp only [reduceCtorEq, Bool.false_eq_true, if_false] at hlo hf hse
      rw [hli]
      exact h.moved hi hl' c.held c.active (by omega) (by omega) (by omega)

theorem Balanced.step_spec (h : c.Balanced) {self : Nat} {event : Event}
    (hs : c.step self budget event = some (c', budget')) : StepSpec c budget c' budget' := by
  cases event with
  | stream i e => exact h.stream hs
  | cancel =>
    cases hs
    exact h.offered (o := c.offer) (by rw [budget.stock_cancel self])
  | assign =>
    simp only [step, Option.ite_none_right_eq_some, Option.some.injEq] at hs
    obtain ⟨hf, hs⟩ := hs
    have ha := h.assigned hf budget
    rwa [hs] at ha
  | poll =>
    obtain ⟨ho, rfl, rfl⟩ := by simpa [step] using hs
    refine h.offered ?_
    have hst := budget.stock_poll self
    split at hst <;> simp_all [Offer.permits]
  | offer =>
    obtain ⟨⟨hf, ho⟩, rfl, rfl⟩ := by simpa [step] using hs
    split
    next hm => exact h.kept hf ho hm
    next => exact h.offered (by rw [ho]; rfl)
  | dropRefused =>
    obtain ⟨ho, rfl, rfl⟩ := by simpa [step] using hs
    exact h.offered (by rw [ho, budget.stock_release]; rfl)
  | stopReplenishing =>
    obtain ⟨hf, rfl, rfl⟩ := by simpa [step] using hs
    exact ⟨{ h with maintaining := fun _ => rfl }, rfl, id, fun _ => ⟨rfl, le_rfl⟩⟩
  | stopIdle =>
    obtain ⟨hf, rfl, rfl⟩ := by simpa [step] using hs
    exact h.released hf id
  | close =>
    obtain ⟨hf, rfl, rfl⟩ := by simpa [step] using hs
    exact h.released hf fun _ => rfl
  | dropIdle =>
    obtain ⟨⟨hr, hi⟩, rfl, rfl⟩ := by simpa [step] using hs
    exact h.droppedIdle hr hi
  | idleReleased =>
    obtain ⟨⟨hr, hi⟩, rfl, rfl⟩ := by simpa [step] using hs
    exact h.idleReleased hr hi

/-- Closed, with its idle permits given back. -/
structure Retired (c : VisitorCredits) : Prop where
  closed : c.closed = true
  maintaining : c.maintaining = false
  idle : c.idle = 0

theorem Balanced.retired (h : c.Balanced) (hc : c.closed = true)
    (hf : c.releasing = false) : c.Retired :=
  ⟨hc, h.maintaining (.inr hc), h.emptied hc hf⟩

theorem Retired.step (h : c.Retired) (hs : StepSpec c budget c' budget') : c'.Retired := by
  obtain ⟨hm, hi⟩ := hs.shrinks h.maintaining
  have hz := h.idle
  exact ⟨hs.closed h.closed, hm, by omega⟩

theorem Retired.assign (h : c.Retired) (budget : Semaphore Nat) : c.assign budget = none := by
  simp [VisitorCredits.assign, h.closed]

end VisitorCredits

namespace ClientCredits

variable {s t : ClientCredits} {a : Action} {total : Nat}

/-- No permit is lost or made, and every connection is balanced. -/
structure Kept (total : Nat) (s : ClientCredits) : Prop where
  stock : s.budget.stock + tally VisitorCredits.permits s.connections = total
  balanced : ∀ c ∈ s.connections, c.Balanced

theorem kept_start (total : Nat) : Kept total (start total) := by
  constructor <;> simp [start, Semaphore.stock]

/-- A step is on one connection, which it leaves as `StepSpec` says. -/
theorem Kept.step (h : s.Kept total) (hs : s.step a = some t) :
    t.Kept total ∧ ∀ (i : Nat) (c : VisitorCredits), s.connections[i]? = some c →
      ∃ c', t.connections[i]? = some c' ∧ (c.Retired → c'.Retired) := by
  cases a with
  | connect =>
    cases hs
    refine ⟨⟨?_, forall_mem_concat h.balanced VisitorCredits.balanced_new⟩, fun i c hi => ?_⟩
    · have hn : VisitorCredits.permits {} = 0 := rfl
      have hst := h.stock
      simp only [tally_concat]
      omega
    · exact ⟨c, getElem?_append_some hi _, id⟩
  | on j event =>
    simp only [ClientCredits.step] at hs
    split at hs
    next => simp at hs
    next c hj =>
      obtain ⟨⟨c', budget'⟩, hc', rfl⟩ := Option.map_eq_some_iff.mp hs
      have hsp := (h.balanced c (List.mem_of_getElem? hj)).step_spec hc'
      refine ⟨⟨?_, forall_mem_set h.balanced hsp.balanced⟩, fun i d hi => ?_⟩
      · have hse := tally_set VisitorCredits.permits c' hj
        have hm := hsp.stock
        have hst := h.stock
        simp only
        omega
      · obtain ⟨hlt, -⟩ := List.getElem?_eq_some_iff.mp hi
        simp only [List.getElem?_set]
        split
        next heq =>
          obtain rfl : c = d := by rw [heq, hi] at hj; exact (Option.some.inj hj).symm
          exact ⟨c', if_pos (heq ▸ hlt), fun hr => hr.step hsp⟩
        next => exact ⟨d, hi, id⟩

theorem Kept.reaches (h : s.Kept total) (hr : system.Reaches s t) : t.Kept total :=
  hr.invariant (I := Kept total) (fun _ _ _ hu _ hs => (hu.step hs).1) h

theorem Kept.retired_reaches (h : s.Kept total) {i : Nat} {c : VisitorCredits}
    (hi : s.connections[i]? = some c) (hc : c.Retired) (hru : system.Reaches s t) :
    ∃ c', t.connections[i]? = some c' ∧ c'.Retired := by
  have ha : t.Kept total ∧ ∃ c', t.connections[i]? = some c' ∧ c'.Retired := by
    refine hru.invariant (I := fun u => u.Kept total ∧
      ∃ c', u.connections[i]? = some c' ∧ c'.Retired) ?_ ⟨h, c, hi, hc⟩
    intro u a v ⟨hu, d, hd, hr⟩ _ hs
    obtain ⟨hv, hco⟩ := hu.step hs
    obtain ⟨d', hd', hk⟩ := hco i d hd
    exact ⟨hv, d', hd', hk hr⟩
  exact ha.2

/-- Conservation of Visitor credit. -/
structure Conserved (total : Nat) (s : ClientCredits) : Prop where
  /-- What the semaphore has, with what it has granted to pending acquisitions, and what
  the connections hold is the budget. -/
  stock : s.budget.stock + tally VisitorCredits.permits s.connections = total
  /-- With the mutex free, `held` is the number of idle permits and of assigned streams
  that are not lowered. -/
  held : ∀ c ∈ s.connections, c.releasing = false →
    c.held = c.idle + tally StreamLease.unlowered c.leases
  limit : ∀ c ∈ s.connections, c.limit = c.held
  /-- `release_idle` does not take `held` below zero. -/
  heldIdle : ∀ c ∈ s.connections, c.releasing = false → c.idle ≤ c.held
  /-- Nor does `before_drop`. -/
  heldLast : ∀ c ∈ s.connections, ∀ l ∈ c.leases, ∀ half, l.phase half = .last → 0 < c.held
  /-- The drop of a permit does not take `active` below zero. -/
  active : ∀ c ∈ s.connections, ∀ l ∈ c.leases, l.resource = .dropping → 0 < c.active
  /-- After `close` there is no idle permit and `assign` gives none, now and later. -/
  closed : ∀ (i : Nat) (c : VisitorCredits), s.connections[i]? = some c → c.closed = true →
    c.releasing = false → ∀ t, system.Reaches s t →
      ∃ c', t.connections[i]? = some c' ∧ c'.idle = 0 ∧ ∀ budget, c'.assign budget = none

theorem credits_conserved (hrun : system.Reaches (start total) s) : s.Conserved total := by
  have hk : s.Kept total := (kept_start total).reaches hrun
  have hh : ∀ c ∈ s.connections, c.releasing = false →
      c.held = c.idle + tally StreamLease.unlowered c.leases := by
    intro c hc hf
    have hh := (hk.balanced c hc).held
    simpa [hf] using hh
  refine ⟨hk.stock, hh, fun c hc => (hk.balanced c hc).limit, ?_, ?_, ?_, ?_⟩
  · intro c hc hf
    have heq := hh c hc hf
    omega
  · intro c hc l hl half hla
    have hu : l.unlowered = 1 := by
      refine if_pos ?_
      cases half with
      | read => exact .inr (.inl hla)
      | write => exact .inr (.inr hla)
    obtain ⟨i, hi⟩ := List.mem_iff_getElem?.mp hl
    have hle := ((hk.balanced c hc).lowered hi).1
    omega
  · intro c hc l hl hd
    have hfi : l.resource.first = 1 := by rw [hd]; rfl
    obtain ⟨i, hi⟩ := List.mem_iff_getElem?.mp hl
    have hle := ((hk.balanced c hc).lowered hi).2
    omega
  · intro i c hi hcl hf t hlt
    have hre := (hk.balanced c (List.mem_of_getElem? hi)).retired hcl hf
    obtain ⟨c', hi', hr⟩ := hk.retired_reaches hi hre hlt
    exact ⟨c', hi', hr.idle, hr.assign⟩

theorem credits_conserved_after_close :
    ∃ s, system.Reaches (start 2) s ∧ s.Conserved 2 ∧ s.connections.length = 2 ∧
      s.budget.stock = 1 ∧ (∀ c ∈ s.connections, c.closed = true → c.held = 0) ∧
      ∃ c ∈ s.connections, c.closed = true ∧ c.active = 0 := by
  have hru : ∃ s ∈ system.exec (start 2)
      [.connect, .connect, .on 0 .poll, .on 0 .offer, .on 0 .assign, .on 0 .assign,
        .on 0 .poll, .on 1 .poll, .on 0 .assign,
        .on 0 (.stream 0 (.droppingHalf .read)), .on 0 (.stream 0 (.dropTransport .read)),
        .on 0 (.stream 0 (.droppingHalf .write)), .on 0 (.stream 0 (.beforeDrop .write)),
        .on 0 .cancel, .on 0 (.stream 0 (.dropLease .read)),
        .on 0 (.stream 0 (.dropTransport .write)), .on 0 (.stream 0 (.dropLease .write)),
        .on 0 (.stream 0 .releaseFirst), .on 0 (.stream 0 .releaseSecond), .on 1 .poll,
        .on 1 .offer, .on 0 (.stream 1 (.droppingHalf .read)),
        .on 0 (.stream 1 (.droppingHalf .write)), .on 0 (.stream 1 (.beforeDrop .write)),
        .on 0 .close, .on 0 .idleReleased, .on 0 (.stream 1 (.dropTransport .write)),
        .on 0 (.stream 1 (.dropTransport .read)), .on 0 (.stream 1 (.dropLease .write)),
        .on 0 (.stream 1 (.dropLease .read)), .on 0 (.stream 1 .releaseFirst),
        .on 0 (.stream 1 .releaseSecond), .on 0 .assign],
      s.connections.length = 2 ∧ s.budget.stock = 1 ∧
      (∀ c ∈ s.connections, c.closed = true → c.held = 0) ∧
      ∃ c ∈ s.connections, c.closed = true ∧ c.active = 0 := by
    decide
  obtain ⟨s, he, hs⟩ := hru
  have hr := Lts.Reaches.of_exec he
  exact ⟨s, hr, credits_conserved hr, hs⟩

/-- Both halves of the only stream are being dropped, and `before_drop` has yet to be
called, when `stop_replenishing` takes the mutex. -/
theorem held_counts_stream_being_dropped :
    ∃ s t, system.Reaches (start 1) s ∧ s.step (.on 0 .stopReplenishing) = some t ∧
      ∃ c ∈ t.connections, c.held = 1 ∧ c.idle = 0 ∧
        ∀ l ∈ c.leases, ∀ half, l.phase half ≠ .held := by
  have hr : ∃ s ∈ system.exec (start 1)
      [.connect, .on 0 .poll, .on 0 .offer, .on 0 .assign,
        .on 0 (.stream 0 (.droppingHalf .read)), .on 0 (.stream 0 (.droppingHalf .write))],
      ∃ t ∈ s.step (.on 0 .stopReplenishing), ∃ c ∈ t.connections, c.held = 1 ∧ c.idle = 0 ∧
        ∀ l ∈ c.leases, l.phase .read ≠ .held ∧ l.phase .write ≠ .held := by
    decide
  obtain ⟨s, he, t, hs, c, hc, hhe, hi, hh⟩ := hr
  refine ⟨s, t, .of_exec he, hs, c, hc, hhe, hi, fun l hl half => ?_⟩
  cases half with
  | read => exact (hh l hl).1
  | write => exact (hh l hl).2

end ClientCredits

end Runewarp.Tunnel
