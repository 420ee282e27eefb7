import Runewarp.Tunnel.ServerAccounting

/-!
# Placement withdrawal

A withdrawal commits by setting a flag, waits until no Visitor work is left and is
answered with `204`.  A call of `open_visitor_stream` that has passed its first checks
may come to its count after the commit, and after the answer.  What matters is its last
check: a stream is created under a read lock that excludes the commit, and the work of
a stream is counted before it is created and until both of its halves are dropped.

An `open_bi` that was pending at the commit may still complete.  What it has opened is reset
in the same call, which fails.
-/

namespace Runewarp.Tunnel.ServerTunnel

variable {s t : ServerTunnel} {a : Action}

/-- No stream is created any more. -/
structure Withdrawn (s : ServerTunnel) : Prop where
  flag : s.shared.withdrawn = true
  uncommitted : ∀ p ∈ s.opens, p ≠ .committing

theorem Withdrawn.move (h : s.Withdrawn) (hm : Move s a t) :
    t.Withdrawn ∧ t.streams.length = s.streams.length := by
  cases hm with
  | driver hd => exact ⟨⟨hd.withdrawn.trans h.flag, h.uncommitted⟩, rfl⟩
  | request _ _ hs => exact ⟨⟨hs.withdrawn.mpr (.inl h.flag), h.uncommitted⟩, rfl⟩
  | callOpen => exact ⟨⟨h.flag, forall_mem_concat h.uncommitted (by simp)⟩, rfl⟩
  | openStep _ _ hs =>
    refine ⟨⟨hs.withdrawn.trans h.flag, forall_mem_set h.uncommitted ?_⟩, rfl⟩
    intro hc
    have hn := (hs.commits hc).1
    rw [h.flag] at hn
    cases hn
  | create hp => exact (h.uncommitted _ (List.mem_of_getElem? hp) rfl).elim
  | stream => exact ⟨⟨by simpa using h.flag, h.uncommitted⟩, List.length_set⟩
  | _ => exact ⟨⟨h.flag, h.uncommitted⟩, rfl⟩

theorem Withdrawn.reaches (h : s.Withdrawn) (hr : system.Reaches s t) :
    t.Withdrawn ∧ t.streams.length = s.streams.length := by
  refine hr.invariant (I := fun u => u.Withdrawn ∧ u.streams.length = s.streams.length) ?_
    ⟨h, rfl⟩
  intro u a v hu _ hs
  obtain ⟨hv, hl⟩ := hu.1.move (move_of_step hs)
  exact ⟨hv, hl.trans hu.2⟩

/-- Every stream has given back its Visitor work. -/
def Quiesced (s : ServerTunnel) : Prop := ∀ l ∈ s.streams, l.resource.second = 0

theorem Accounted.quiesced (h : s.Accounted) (hw : s.shared.visitorWork = 0) :
    s.Quiesced := by
  have hv := h.visitors
  have ht : tally (·.resource.second) s.streams = 0 := by omega
  intro l hl
  have hz := weight_eq_zero ht hl
  exact hz

theorem Quiesced.move (h : s.Quiesced) (hw : s.Withdrawn) (ha : s.Accounted)
    (hm : Move s a t) : t.Quiesced := by
  cases hm with
  | create hp => exact (hw.uncommitted _ (List.mem_of_getElem? hp) rfl).elim
  | stream hl hs =>
    have hme := List.mem_of_getElem? hl
    have hse := ((ha.sound _ hme).resource_step hs).2
    refine forall_mem_set h ?_
    have hz := h _ hme
    omega
  | _ => exact h

theorem Quiesced.reaches (h : s.Quiesced) (hw : s.Withdrawn) (ha : s.Accounted)
    (hr : system.Reaches s t) : t.Quiesced ∧ t.Accounted := by
  have hal : t.Quiesced ∧ t.Withdrawn ∧ t.Accounted := by
    refine hr.invariant (I := fun u => u.Quiesced ∧ u.Withdrawn ∧ u.Accounted) ?_
      ⟨h, hw, ha⟩
    intro u a v ⟨hq, hu, hac⟩ _ hs
    have hm := move_of_step hs
    exact ⟨hq.move hu hac hm, (hu.move hm).1, hac.move hm⟩
  exact ⟨hal.1, hal.2.2⟩

/-- What the withdrawal requests and the opens say about the flag and the streams. -/
structure Coordinated (s : ServerTunnel) : Prop where
  accounted : s.Accounted
  /-- The commit waits for the read lock. -/
  locked : ∀ p ∈ s.opens, p = .committing → s.shared.withdrawn = false
  committed : ∀ r ∈ s.requests, r.phase = .quiescing → s.shared.withdrawn = true
  answering : ∀ r ∈ s.requests, r.phase = .answering → s.shared.withdrawn = true ∧ s.Quiesced

theorem coordinated_start : Coordinated {} := by
  refine ⟨accounted_start, ?_, ?_, ?_⟩ <;> simp

theorem Coordinated.withdrawn (h : s.Coordinated) (hf : s.shared.withdrawn = true) :
    s.Withdrawn := by
  refine ⟨hf, fun p hp hc => ?_⟩
  have hn := h.locked p hp hc
  rw [hf] at hn
  cases hn

theorem Coordinated.move (h : s.Coordinated) (hm : Move s a t) : t.Coordinated := by
  have ha := h.accounted.move hm
  -- Once a request answers, no stream is left and none comes.
  have hqu : ∀ r ∈ s.requests, r.phase = .answering → t.Quiesced := by
    intro r hr hp
    obtain ⟨hf, hq⟩ := h.answering r hr hp
    exact hq.move (h.withdrawn hf) h.accounted hm
  cases hm with
  | driver hd =>
    refine ⟨ha, ?_, ?_, ?_⟩ <;> simp only [hd.withdrawn]
    · exact h.locked
    · exact h.committed
    · exact h.answering
  | accept =>
    refine ⟨ha, h.locked, ?_, ?_⟩
    · exact forall_mem_concat h.committed (by simp)
    · exact forall_mem_concat h.answering (by simp)
  | request hr hlo hs =>
    have hme := List.mem_of_getElem? hr
    have hk : s.shared.withdrawn = true → _ := fun hf => hs.withdrawn.mpr (.inl hf)
    refine ⟨ha, ?_, forall_mem_set ?_ ?_, forall_mem_set ?_ ?_⟩
    · intro p hp hc
      by_contra hf
      rcases hs.withdrawn.mp (by simpa using hf) with hf | hco
      · simp [h.locked p hp hc] at hf
      · have hl := hlo hco p hp
        rw [hc] at hl
        cases hl
    · exact fun r hr hp => hk (h.committed r hr hp)
    · exact fun hp => hs.withdrawn.mpr (.inr (hs.quiesces hp))
    · exact fun r hr hp => ⟨hk (h.answering r hr hp).1, hqu r hr hp⟩
    · intro hp
      obtain ⟨hb, hw⟩ := hs.answers hp
      exact ⟨hk (h.committed _ hme hb), h.accounted.quiesced hw⟩
  | callOpen =>
    exact ⟨ha, forall_mem_concat h.locked (by simp), h.committed, h.answering⟩
  | openStep hp _ hs | create hp hs =>
    refine ⟨ha, ?_, ?_, ?_⟩ <;> simp only [hs.withdrawn]
    · exact forall_mem_set h.locked fun hc => (hs.commits hc).1
    · exact h.committed
    · exact fun r hr hp => ⟨(h.answering r hr hp).1, hqu r hr hp⟩
  | stream =>
    refine ⟨ha, ?_, ?_, ?_⟩ <;> simp only [released_withdrawn]
    · exact h.locked
    · exact h.committed
    · exact fun r hr hp => ⟨(h.answering r hr hp).1, hqu r hr hp⟩
  | _ => exact ⟨ha, h.locked, h.committed, h.answering⟩

theorem coordinated_of_reaches (hr : system.Reaches {} s) : s.Coordinated :=
  hr.invariant (I := Coordinated) (fun _ _ _ h _ hs => h.move (move_of_step hs))
    coordinated_start

theorem Quiesced.allDropped (h : s.Quiesced) (ha : s.Accounted) : s.AllDropped := by
  refine ha.allDropped fun l hl hh => ?_
  have hz := h l hl
  rw [hh] at hz
  cases hz

/-- What a withdrawal promises, in a state and in every state after it. -/
structure WithdrawalSafe (s : ServerTunnel) : Prop where
  /-- A commit stands, and no stream is created after it. -/
  permanent : s.shared.withdrawn = true → ∀ t, system.Reaches s t →
    t.shared.withdrawn = true ∧ t.streams.length = s.streams.length
  /-- `204` is sent after a commit, and no half is left then or later. -/
  answered : ∀ r ∈ s.requests, r.phase = .answering → s.shared.withdrawn = true ∧
    ∀ t, system.Reaches s t → t.AllDropped

theorem withdrawal_safe (hrun : system.Reaches {} s) : s.WithdrawalSafe := by
  have h := coordinated_of_reaches hrun
  constructor
  · intro hf t hre
    obtain ⟨hw, hl⟩ := (h.withdrawn hf).reaches hre
    exact ⟨hw.flag, hl⟩
  · intro r hr hp
    obtain ⟨hf, hq⟩ := h.answering r hr hp
    refine ⟨hf, fun t hre => ?_⟩
    obtain ⟨hq', ha⟩ := hq.reaches (h.withdrawn hf) h.accounted hre
    exact hq'.allDropped ha

/-- One Visitor is placed and its stream dropped half by half, while a second call is
still before its count; the withdrawal is answered, and then the second call goes on. -/
theorem withdrawal_safe_with_late_open :
    ∃ s, system.Reaches {} s ∧ s.requests = [⟨true, .serving⟩, ⟨true, .answering⟩] ∧
      s.streams.length = 1 ∧ s.opens = [.returned (.ok 0), .opening] ∧ s.WithdrawalSafe := by
  have hru : ∃ s ∈ system.exec {}
      [.accept, .request 0 (.resolve (some .session)), .request 0 (.accept true),
        .request 0 .proceed, .callOpen, .openStep 0 .proceed, .openStep 0 .proceed,
        .openStep 0 .proceed, .openStep 0 .proceed, .openStep 0 .proceed, .openStep 0 .proceed,
        .openStep 0 (.openBi (.ok ())), .openStep 0 .proceed, .openStep 0 .proceed,
        .openStep 0 .proceed, .openStep 0 .proceed, .openStep 0 .proceed,
        .callOpen, .openStep 1 .proceed, .openStep 1 .proceed, .openStep 1 .proceed,
        .accept, .request 1 (.resolve (some .withdrawal)), .request 1 .bodyless,
        .request 1 .proceed,
        .stream 0 (.droppingHalf .read), .stream 0 (.dropTransport .read),
        .stream 0 (.droppingHalf .write), .stream 0 (.beforeDrop .write),
        .stream 0 (.dropLease .read), .stream 0 (.dropTransport .write),
        .stream 0 (.dropLease .write), .stream 0 .releaseFirst, .stream 0 .releaseSecond,
        .request 1 .proceed, .openStep 1 .proceed, .openStep 1 .proceed, .openStep 1 .proceed],
      s.requests = [⟨true, .serving⟩, ⟨true, .answering⟩] ∧ s.streams.length = 1 ∧
      s.opens = [.returned (.ok 0), .opening] := by
    decide
  obtain ⟨s, he, hr, hs, ho⟩ := hru
  have hre := Lts.Reaches.of_exec he
  exact ⟨s, hre, hr, hs, ho, withdrawal_safe hre⟩

/-! ## Opens that complete late -/

/-- How a call fails that resets what it has opened. -/
def lateFailures : List OpenFailure :=
  [.closed "goaway-after-open", .closed "withdrawn-after-open"]

/-- The call has an open stream, and will reset it or has done so. -/
def rejecting : OpenPhase → Bool
  | .checkGoaway | .borrow | .checkWithdrawn => true
  | .reset failure | .stopSending failure | .dropRequest (some failure)
  | .dropVisitor (some failure) | .returned (.error failure) =>
    failure ∈ lateFailures
  | _ => false

/-- The call has not come to `open_bi` and does not come to it. -/
def barred (p : OpenPhase) : Bool := p = .readWithdrawn ∨ p = .refused

/-- The steps a rejecting call has before it. -/
def stepsLeft : OpenPhase → Nat
  | .checkGoaway => 7
  | .borrow => 6
  | .checkWithdrawn => 5
  | .reset _ => 4
  | .stopSending _ => 3
  | .dropRequest _ => 2
  | .dropVisitor _ => 1
  | _ => 0

section

variable {sh sh' : Shared} {n i : Nat} {p p' : OpenPhase} {e : OpenEvent}

theorem rejecting_step (hw : sh.withdrawn = true) (hp : rejecting p = true)
    (h : p.step sh n e = some (p', sh')) : rejecting p' = true := by
  unfold OpenPhase.step at h
  split at h <;> try cases hp
  case h_11 =>
    cases h
    split <;> rfl
  case h_12 =>
    cases h
    rfl
  case h_13 =>
    cases h
    rw [if_pos hw]
    rfl
  case h_16 | h_17 | h_19 =>
    cases h
    exact hp
  case h_18 failure =>
    cases h
    cases failure with
    | none => cases hp
    | some failure => exact hp
  case h_21 => cases h

theorem barred_step (hw : sh.withdrawn = true) (hp : barred p = true)
    (h : p.step sh n e = some (p', sh')) : barred p' = true := by
  rcases of_decide_eq_true hp with rfl | rfl
  · cases e <;> cases h
    rw [if_pos hw]
    rfl
  · cases e <;> cases h

/-- Left to itself, a rejecting call comes one step nearer to its end. -/
theorem rejecting_proceed (hw : sh.withdrawn = true) (hp : rejecting p = true)
    (hl : stepsLeft p ≠ 0) :
    ∃ p' sh', p.step sh n .proceed = some (p', sh') ∧ sh'.withdrawn = true ∧
      stepsLeft p' < stepsLeft p := by
  cases p with
  | checkGoaway =>
    refine ⟨_, sh, rfl, hw, ?_⟩
    split <;> decide
  | borrow => exact ⟨_, sh, rfl, hw, by decide⟩
  | checkWithdrawn =>
    refine ⟨_, sh, rfl, hw, ?_⟩
    rw [if_pos hw]
    decide
  | reset | stopSending | dropRequest => exact ⟨_, _, rfl, hw, Nat.lt_succ_self _⟩
  | dropVisitor failure =>
    cases failure with
    | none => cases hp
    | some failure => exact ⟨_, _, rfl, hw, Nat.zero_lt_one⟩
  | _ => exact absurd rfl hl

/-- A step of the system leaves a call alone or is a step of it. -/
theorem open_of_step (hi : s.opens[i]? = some p) (h : system.step s a = some t) :
    ∃ p', t.opens[i]? = some p' ∧
      (p' = p ∨ ∃ e, a = .openStep i e ∧
        p.step s.shared s.streams.length e = some (p', t.shared)) := by
  simp only [system] at h
  cases a with
  | openStep j e =>
    simp only [step] at h
    split at h
    next => cases h
    next q hq =>
      obtain ⟨⟨q', sh⟩, hs, rfl⟩ := Option.map_eq_some_iff.mp h
      by_cases hj : j = i
      · subst hj
        cases hi.symm.trans hq
        exact ⟨q', getElem?_set_moved hi, .inr ⟨e, rfl, hs⟩⟩
      · exact ⟨p, (List.getElem?_set_ne hj).trans hi, .inl rfl⟩
  | callOpen =>
    cases h
    exact ⟨p, getElem?_append_some hi _, .inl rfl⟩
  | accept =>
    obtain ⟨-, rfl⟩ := Option.ite_some_none_eq_some.mp h
    exact ⟨p, hi, .inl rfl⟩
  | driver e =>
    obtain ⟨_, -, rfl⟩ := Option.map_eq_some_iff.mp h
    exact ⟨p, hi, .inl rfl⟩
  | request j e =>
    simp only [step] at h
    split at h
    next => cases h
    next =>
      obtain ⟨-, h⟩ := Option.ite_none_right_eq_some.mp h
      obtain ⟨_, -, rfl⟩ := Option.map_eq_some_iff.mp h
      exact ⟨p, hi, .inl rfl⟩
  | stream j e =>
    simp only [step] at h
    split at h
    next => cases h
    next =>
      obtain ⟨_, -, rfl⟩ := Option.map_eq_some_iff.mp h
      exact ⟨p, hi, .inl rfl⟩
  | _ =>
    cases h
    exact ⟨p, hi, .inl rfl⟩

/-- What the steps of a call keep after a commit holds of it in every run. -/
theorem Withdrawn.open_steps {P : OpenPhase → Prop} {ok : ServerTunnel → Action → Prop}
    (hk : ∀ u sh n e p p', u.shared.withdrawn = true → ok u (.openStep i e) →
      u.opens[i]? = some p → P p → p.step u.shared n e = some (p', sh) → P p')
    (hw : s.Withdrawn) (hi : s.opens[i]? = some p) (hp : P p) (hr : system.Steps ok s t) :
    ∃ q, t.opens[i]? = some q ∧ P q := by
  have ha : t.Withdrawn ∧ ∃ q, t.opens[i]? = some q ∧ P q := by
    refine hr.invariant (I := fun u => u.Withdrawn ∧ ∃ q, u.opens[i]? = some q ∧ P q) ?_
      ⟨hw, p, hi, hp⟩
    intro u a v ⟨hu, q, hq, hPq⟩ hok hs
    refine ⟨(hu.move (move_of_step hs)).1, ?_⟩
    obtain ⟨q', hq', rfl | ⟨e, rfl, hc⟩⟩ := open_of_step hq hs
    · exact ⟨q', hq', hPq⟩
    · exact ⟨q', hq', hk u _ _ e q q' hu.flag hok hq hPq hc⟩
  exact ha.2

/-- A step of call `i` from a phase with `P`. -/
def StepsFrom (i : Nat) (P : OpenPhase → Prop) (s : ServerTunnel) (a : Action) : Prop :=
  (∃ e, a = .openStep i e) ∧ ∃ p, s.opens[i]? = some p ∧ P p

/-- A rejecting call comes to its last four steps one by one. -/
theorem stepsLeft_step {k : Nat} (hw : sh.withdrawn = true) (hp : rejecting p = true)
    (hk : k ≤ 4) (hle : k < stepsLeft p) (h : p.step sh n e = some (p', sh')) :
    k ≤ stepsLeft p' := by
  unfold OpenPhase.step at h
  split at h <;> try cases hp
  case h_11 =>
    cases h
    split
    · exact hk
    · exact hk.trans (by decide)
  case h_12 =>
    cases h
    exact hk.trans (by decide)
  case h_13 =>
    cases h
    rw [if_pos hw]
    exact hk
  case h_16 | h_17 | h_18 | h_19 =>
    cases h
    exact Nat.le_of_lt_succ hle
  case h_21 => cases h

/-- A call that has come past one of its last phases has taken the step from it. -/
theorem Withdrawn.takes {P : OpenPhase → Prop} {as : List Action} {k : Nat} (hk : k ≤ 4)
    (hP : ∀ p, stepsLeft p = k → P p) (hw : s.Withdrawn) (hi : s.opens[i]? = some .checkGoaway)
    (hex : system.exec s as = some t) (hp : t.opens[i]? = some p) (hlt : stepsLeft p < k) :
    system.Takes (StepsFrom i P) s as := by
  refine Lts.takes_of_exec hex fun hr => ?_
  have hst : k ≤ stepsLeft .checkGoaway := hk.trans (by decide)
  obtain ⟨q, hq, -, hle⟩ : ∃ q, t.opens[i]? = some q ∧ rejecting q = true ∧ k ≤ stepsLeft q := by
    refine hw.open_steps (fun u sh n e p p' hwu hn hp hre hs => ?_) hi ⟨rfl, hst⟩ hr
    refine ⟨rejecting_step hwu hre.1 hs, stepsLeft_step hwu hre.1 hk ?_ hs⟩
    exact Nat.lt_of_le_of_ne hre.2 fun heq => hn ⟨⟨e, rfl⟩, p, hp, hP p heq.symm⟩
  cases hp.symm.trans hq
  exact absurd hlt (Nat.not_lt_of_le hle)

theorem rejecting_returns {p : OpenPhase} (hw : s.shared.withdrawn = true)
    (hi : s.opens[i]? = some p) (hp : rejecting p = true) :
    ∃ k t, system.exec s (List.replicate k (.openStep i .proceed)) = some t ∧
      ∃ failure ∈ lateFailures, t.opens[i]? = some (.returned (.error failure)) := by
  induction hle : stepsLeft p using Nat.strong_induction_on generalizing s p with
  | _ left ih =>
  by_cases hz : stepsLeft p = 0
  · refine ⟨0, s, rfl, ?_⟩
    cases p with
    | returned result =>
      cases result with
      | error failure => exact ⟨failure, of_decide_eq_true hp, hi⟩
      | ok stream => cases hp
    | checkGoaway | borrow | checkWithdrawn | reset _ | stopSending _ | dropRequest _
    | dropVisitor _ => cases hz
    | _ => cases hp
  · obtain ⟨p', sh', hca, hw', hlt⟩ := rejecting_proceed (n := s.streams.length) hw hp hz
    have hc : p ≠ .committing := by
      rintro rfl
      cases hp
    let t : ServerTunnel := { s with shared := sh', opens := s.opens.set i p' }
    have hs : system.step s (.openStep i .proceed) = some t := by
      simp only [system, step, hi, hca, Option.map_some, if_neg hc]
      rfl
    obtain ⟨k, u, he, hu⟩ := ih (stepsLeft p') (hle ▸ hlt) (s := t) (p := p') hw'
      (getElem?_set_moved hi) (rejecting_step hw hp hca) rfl
    refine ⟨k + 1, u, ?_, hu⟩
    rw [List.replicate_succ, Lts.exec, hs]
    exact he

end

/-- What holds of the opens of a connection from a commit on. -/
structure ClosedToOpens (s : ServerTunnel) : Prop where
  /-- A call that starts after the commit does not come to `open_bi`. -/
  refuses : ∀ i : Nat, s.opens[i]? = some .readWithdrawn → ∀ t, system.Reaches s t →
    ∃ p, t.opens[i]? = some p ∧ barred p = true
  /-- What an `open_bi` opens after the commit is no stream for a Visitor: the call can only
  fail, and by then it has reset and stopped it. -/
  rejects : ∀ i t, system.step s (.openStep i (.openBi (.ok ()))) = some t →
    ∀ as u, system.exec t as = some u →
      u.streams.length = s.streams.length ∧
      (∃ p, u.opens[i]? = some p ∧ rejecting p = true) ∧
      (∀ result, u.opens[i]? = some (.returned result) →
        system.Takes (StepsFrom i fun p => ∃ failure, p = .reset failure) t as ∧
        system.Takes (StepsFrom i fun p => ∃ failure, p = .stopSending failure) t as) ∧
      ∃ k v, system.exec u (List.replicate k (.openStep i .proceed)) = some v ∧
        ∃ failure ∈ lateFailures, v.opens[i]? = some (.returned (.error failure))

theorem open_of_openBi {i : Nat} (h : system.step s (.openStep i (.openBi (.ok ()))) = some t) :
    t.opens[i]? = some .checkGoaway := by
  simp only [system, step] at h
  split at h
  next => cases h
  next p hp =>
    obtain ⟨⟨p', sh⟩, hc, rfl⟩ := Option.map_eq_some_iff.mp h
    cases p with
    | opening =>
      cases hc
      exact getElem?_set_moved hp
    | dropVisitor failure => cases failure <;> cases hc
    | _ => cases hc

/-- In every interleaving, no Visitor gets a stream that was opened after the commit. -/
theorem closed_to_opens_after_withdrawal (hrun : system.Reaches {} s)
    (hflag : s.shared.withdrawn = true) : s.ClosedToOpens := by
  have hw : s.Withdrawn := (coordinated_of_reaches hrun).withdrawn hflag
  constructor
  · intro i hi t hre
    exact hw.open_steps (P := (barred · = true)) (fun _ _ _ _ _ _ hw _ _ => barred_step hw) hi rfl
      hre
  · intro i t ho as u hex
    obtain ⟨hwt, hs⟩ := hw.move (move_of_step ho)
    have hre := Lts.Reaches.of_exec hex
    obtain ⟨hwu, hl⟩ := hwt.reaches hre
    have hot := open_of_openBi ho
    obtain ⟨p, hp, hr⟩ := hwt.open_steps (P := (rejecting · = true))
      (fun _ _ _ _ _ _ hw _ _ => rejecting_step hw) hot rfl hre
    refine ⟨hl.trans hs, ⟨p, hp, hr⟩, fun result hret => ⟨?_, ?_⟩, rejecting_returns hwu.flag hp hr⟩
    · exact hwt.takes (Nat.le_refl 4) (fun p hk => by cases p <;> simp_all [stepsLeft]) hot hex hret
        (by decide : 0 < 4)
    · exact hwt.takes (by decide : 3 ≤ 4) (fun p hk => by cases p <;> simp_all [stepsLeft]) hot hex
        hret (by decide : 0 < 3)

/-- The session is there, a call waits in `open_bi`, and a withdrawal commits. -/
def commitDuringOpen : List Action :=
  [.accept, .request 0 (.resolve (some .session)), .request 0 (.accept true), .request 0 .proceed,
    .callOpen, .openStep 0 .proceed, .openStep 0 .proceed, .openStep 0 .proceed,
    .openStep 0 .proceed, .openStep 0 .proceed, .openStep 0 .proceed,
    .accept, .request 1 (.resolve (some .withdrawal)), .request 1 .bodyless, .request 1 .proceed]

theorem closed_to_opens_after_commitDuringOpen :
    ∃ s ∈ system.exec {} commitDuringOpen, s.shared.withdrawn = true ∧ s.opens = [.opening] ∧
      s.ClosedToOpens := by
  have he : ∃ s ∈ system.exec {} commitDuringOpen,
      s.shared.withdrawn = true ∧ s.opens = [.opening] := by decide
  obtain ⟨s, hs, hf, ho⟩ := he
  exact ⟨s, hs, hf, ho, closed_to_opens_after_withdrawal (.of_exec hs) hf⟩

/-- The pending `open_bi` completes after the commit. -/
theorem openBi_completes_after_commit :
    ∃ s ∈ system.exec {} commitDuringOpen, s.shared.withdrawn = true ∧
      ∃ t ∈ system.step s (.openStep 0 (.openBi (.ok ()))), t.opens = [.checkGoaway] := by
  decide

end Runewarp.Tunnel.ServerTunnel
