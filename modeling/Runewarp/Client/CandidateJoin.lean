import Runewarp.Client.CandidateLifecycle
import Runewarp.Tunnel.CreditConservation

/-!
# A candidate that joins

A candidate's session task waits at the credit gate.  The gate is opened by the first
poll of the candidate's run, the run is made only by the step of `settle` that joins the
candidate, and that step reads the controls and the primary's hint.  The Visitor credit
of a candidate whose gate has not been opened is as it was when it was established, and
its session task is not among those that wait for the budget.

The counter of interruptions and the pause are what make the hint that `settle` reads
trustworthy: it may be a hint that the worker has not been told of, but not one from a
subscription that has ended since the worker looked.
-/

namespace Runewarp.Tunnel

namespace VisitorCredits

/-- Nothing was acquired, offered or assigned. -/
structure Unused (c : VisitorCredits) : Prop where
  idle : c.idle = 0
  held : c.held = 0
  limit : c.limit = 0
  offer : c.offer = .none
  leases : c.leases = []

/-- The calls by which permits come to a connection. -/
def Event.acquires : Event → Bool
  | .poll | .offer | .assign => true
  | _ => false

variable {c c' : VisitorCredits} {budget budget' : Semaphore Nat} {i j : Nat} {event : Event}

theorem Unused.permits (h : c.Unused) : c.permits = 0 := by
  simp [VisitorCredits.permits, h.idle, h.offer, h.leases, Offer.permits]

/-- Without one of these calls there is nothing to give back. -/
theorem Unused.step (h : c.Unused) (ha : budget.Absent i) (he : event.acquires = false)
    (hs : c.step i budget event = some (c', budget')) : c'.Unused ∧ budget'.Absent i := by
  cases event with
  | poll | offer | assign => cases he
  | cancel =>
    cases hs
    exact ⟨h, ha.cancel⟩
  | dropRefused =>
    simp [VisitorCredits.step, h.offer] at hs
  | dropIdle =>
    simp [VisitorCredits.step, h.idle] at hs
  | stream k e =>
    simp [VisitorCredits.step, h.leases] at hs
  | _ =>
    obtain ⟨-, ⟨⟩⟩ := Option.ite_some_none_eq_some.mp hs
    refine ⟨⟨?_, ?_, ?_, ?_, ?_⟩, ha⟩ <;>
      simp [releaseIdle, setLimit, h.idle, h.held, h.limit, h.offer, h.leases]

theorem absent_assign (h : budget.Absent i) : ((c.assign budget).getD (c, budget)).2.Absent i := by
  unfold assign
  split
  · exact h
  · split
    · exact h
    · split
      · next budget' ha => exact h.tryAcquire ha
      · exact h

/-- A call on one connection leaves the others out of the budget. -/
theorem absent_step (h : budget.Absent i) (hne : i ≠ j)
    (hs : c.step j budget event = some (c', budget')) : budget'.Absent i := by
  cases event with
  | cancel =>
    cases hs
    exact h.cancel
  | stream k e =>
    simp only [VisitorCredits.step] at hs
    split at hs
    · cases hs
    · obtain ⟨l, -, hs⟩ := Option.bind_eq_some_iff.mp hs
      split at hs
      · obtain ⟨-, ⟨⟩⟩ := Option.ite_some_none_eq_some.mp hs
        exact h
      · cases hs
        exact h
      · cases hs
        exact h.release
      · cases hs
        exact h
  | assign =>
    simp only [VisitorCredits.step, Option.ite_none_right_eq_some, Option.some.injEq] at hs
    have ha := absent_assign (c := c) h
    rw [hs.2] at ha
    exact ha
  | poll =>
    obtain ⟨-, ⟨⟩⟩ := Option.ite_some_none_eq_some.mp hs
    exact h.poll hne
  | dropRefused | dropIdle =>
    obtain ⟨-, ⟨⟩⟩ := Option.ite_some_none_eq_some.mp hs
    exact h.release
  | _ =>
    obtain ⟨-, ⟨⟩⟩ := Option.ite_some_none_eq_some.mp hs
    exact h

end VisitorCredits

namespace ClientCredits

variable {s s' : ClientCredits} {i j : Nat} {event : VisitorCredits.Event}

/-- Connection `i` has no part in the budget. -/
def Untouched (s : ClientCredits) (i : Nat) : Prop :=
  (∀ c, s.connections[i]? = some c → c.Unused) ∧ s.budget.Absent i

theorem of_step_on (hs : s.step (.on j event) = some s') :
    ∃ c c', s.connections[j]? = some c ∧ c.step j s.budget event = some (c', s'.budget) ∧
      s'.connections = s.connections.set j c' := by
  simp only [step] at hs
  split at hs
  · cases hs
  · next c hc =>
    obtain ⟨⟨c', budget⟩, hst, rfl⟩ := Option.map_eq_some_iff.mp hs
    exact ⟨c, c', hc, hst, rfl⟩

/-- A call on another connection, or one that acquires nothing. -/
theorem Untouched.step (h : s.Untouched i) (he : i = j → event.acquires = false)
    (hs : s.step (.on j event) = some s') : s'.Untouched i := by
  obtain ⟨c, c', hc, hst, hco⟩ := of_step_on hs
  by_cases hij : i = j
  · subst hij
    obtain ⟨hu, ha⟩ := (h.1 c hc).step h.2 (he rfl) hst
    refine ⟨fun d hd => ?_, ha⟩
    rw [hco, getElem?_set_moved hc] at hd
    cases hd
    exact hu
  · refine ⟨fun d hd => ?_, VisitorCredits.absent_step h.2 hij hst⟩
    rw [hco, List.getElem?_set_ne (Ne.symm hij)] at hd
    exact h.1 d hd

end ClientCredits

end Runewarp.Tunnel

namespace Runewarp.Client.Stretch

open Tunnel

variable {γ : Type} [DecidableEq γ] {s₀ s s' : Stretch γ} {i : Nat} {c c' : Connection γ}

/-! ## The step that joins a candidate -/

/-- What `settle` is to read when it joins the candidate with connection `i`. -/
def Permitted (s : Stretch γ) (i : Nat) : Prop :=
  ∃ run primary candidate, s.worker = .handling run (.attempted (.connected i)) ∧
    s.connections[run.primary.connection]? = some primary ∧
    s.connections[i]? = some candidate ∧
    primary.tunnel.hint.value.generation = some candidate.tunnel.generation ∧
    primary.tunnel.hint.value.paused = false ∧
    primary.tunnel.hint.value.interruptions = run.primary.interruptions ∧
    s.control.maintenance.value = .maintain ∧ s.control.shutdownRequested = false ∧
    run.shutdownStarted = false

/-- The connection that has joined the primary. -/
def joined (s : Stretch γ) : Option Nat :=
  (s.worker.run.bind ConnectedAddress.joined).map Active.connection

/-- A step in which connection `i` joins. -/
def Joins (i : Nat) (s : Stretch γ) (a : Action γ) : Prop :=
  ∃ t, s.step a = some t ∧ s.joined ≠ some i ∧ t.joined = some i

/-- Connection `i` has a part in the budget: it holds or waits for a permit, it offers
credit, or it has been assigned a Visitor. -/
def Carries (s : Stretch γ) (i : Nat) : Prop :=
  (∃ credits, s.credits.connections[i]? = some credits ∧
    (0 < credits.permits ∨ 0 < credits.limit ∨ credits.leases ≠ [])) ∨
    i ∈ s.credits.budget.queue ∨ i ∈ s.credits.budget.granted

variable {a : Action γ} {j : Nat}

theorem permitted_of_settle {run : ConnectedAddress γ} {target : γ} {primary : Connection γ}
    (hs : s.Sound) (hw : s.worker = .handling run (.attempted (.connected i)))
    (ht : run.candidate.target = some target) (hc : s.connections[i]? = some c)
    (hp : s.connections[run.primary.connection]? = some primary)
    (ha : s.control.allowsCandidates run.shutdownStarted = true)
    (hh : run.primary.stillHints primary.tunnel target = true) : Permitted s i := by
  obtain ⟨target', ht', hi⟩ := hs.fits.attempt run i hw
  rw [profile_eq hc] at hi
  rw [ht] at ht'
  cases ht'
  have hg : c.tunnel.generation = target := congrArg Prod.snd (Option.some.inj hi)
  simp only [Active.stillHints, Bool.and_eq_true, decide_eq_true_eq, Bool.not_eq_true'] at hh
  simp only [Control.allowsCandidates, Bool.and_eq_true, decide_eq_true_eq,
    Bool.not_eq_true'] at ha
  obtain ⟨⟨hhi, hpa⟩, hin⟩ := hh
  exact ⟨run, primary, c, hw, hp, hc, hg ▸ hhi, hpa, hin,
    ha.2, ha.1.2, ha.1.1⟩

/-- Only `settle` makes a connection join. -/
theorem permitted_of_move (hso : s.Sound) (hm : Move s s') (hn : s.joined ≠ some i)
    (hj : s'.joined = some i) : Permitted s i := by
  cases hm with
  | worker hw =>
    cases hw with
    | joins hw ht hc hp ha hh =>
      cases hj
      exact permitted_of_settle hso hw ht hc hp ha hh
    | enter _ _ _ hr => cases (congrArg (Option.map Active.connection) hr).symm.trans hj
    | returns | handsOver | leaves => cases hj
    | quiet hq =>
      refine absurd (Eq.trans ?_ hj) hn
      unfold joined
      generalize s.worker = w at hq
      cases hq with
      | poll h | take h | handle h => exact congrArg (Option.map Active.connection) h.joined.symm
    | polls hp =>
      refine absurd (Eq.trans ?_ hj) hn
      unfold joined
      generalize s.worker = w at hp
      cases hp <;> rfl
    | ends he =>
      refine absurd (Eq.trans ?_ hj) hn
      unfold joined
      generalize s.worker = w at he
      cases he <;> rfl
    | establishes hw | rejects hw =>
      refine absurd (Eq.trans ?_ hj) hn
      unfold joined
      rw [hw]
      rfl
  | _ => exact absurd hj hn

omit [DecidableEq γ] in
theorem not_carries (h : s.credits.Untouched i) : ¬ s.Carries i := by
  rintro (⟨credits, hc, hpa⟩ | hq | hg)
  · have hu := h.1 credits hc
    rcases hpa with hp | hl | hle
    · rw [hu.permits] at hp
      cases hp
    · rw [hu.limit] at hl
      cases hl
    · exact hle hu.leases
  · exact h.2.1 hq
  · exact h.2.2 hg

/-! ## The gate -/

/-- A candidate whose run is not made: its session task waits, and it has done nothing. -/
structure AtGate (credits : ClientCredits) (i : Nat) (c : Connection γ) : Prop where
  run : c.run = .unstarted
  release : c.tunnel.creditRelease ≠ .sent
  session : c.tunnel.session ≠ .offering
  untouched : credits.Untouched i

/-- Connection `i` is no candidate, or it is at the gate. -/
structure Gated (s : Stretch γ) (i : Nat) : Prop where
  aligned : s.credits.connections.length = s.connections.length
  absent : s.connections.length ≤ i → s.credits.budget.Absent i
  /-- The first connection is no candidate. -/
  entering : ∀ c, s.worker = .entering i → s.connections[i]? = some c → c.tunnel.candidate = false
  gate : ∀ c, s.connections[i]? = some c → c.tunnel.candidate = true → AtGate s.credits i c

theorem gated_start (control : Control) (initial : TunnelEventState γ) (budget : Nat) :
    Gated (start control initial budget) i := by
  refine ⟨rfl, fun _ => ⟨List.not_mem_nil, List.not_mem_nil⟩, fun c _ hc => ?_, fun c hc hca => ?_⟩
  · obtain rfl := List.mem_singleton.mp (List.mem_of_getElem? hc)
    rfl
  · obtain rfl := List.mem_singleton.mp (List.mem_of_getElem? hc)
    cases hca

omit [DecidableEq γ] in
/-- Connection `j` changes. -/
theorem Gated.set (h : s.Gated i) (hcr : s'.credits = s.credits)
    (hco : s'.connections = s.connections.set j c') (hc : s.connections[j]? = some c)
    (hca : c'.tunnel.candidate = c.tunnel.candidate)
    (hw : s'.worker = .entering i → s.worker = .entering i)
    (hg : i = j → c.tunnel.candidate = true → AtGate s.credits i c → AtGate s.credits i c') :
    s'.Gated i := by
  refine ⟨?_, ?_, fun d he hd => ?_, fun d hd hj => ?_⟩
  · rw [hcr, hco, List.length_set]
    exact h.aligned
  · rw [hcr, hco, List.length_set]
    exact h.absent
  · rw [hco] at hd
    rcases of_getElem?_set hd with ⟨rfl, rfl⟩ | hd
    · exact hca.trans (h.entering c (hw he) hc)
    · exact h.entering d (hw he) hd
  · rw [hco] at hd
    rw [hcr]
    rcases of_getElem?_set hd with ⟨rfl, rfl⟩ | hd
    · have hcn := hca.symm.trans hj
      exact hg rfl hcn (h.gate c hc hcn)
    · exact h.gate d hd hj

omit [DecidableEq γ] in
theorem Gated.same (h : s.Gated i) (hcr : s'.credits = s.credits)
    (hc : s'.connections = s.connections)
    (hw : s'.worker = .entering i → s.worker = .entering i) : s'.Gated i := by
  refine ⟨?_, ?_, fun d he hd => ?_, ?_⟩
  · rw [hcr, hc]
    exact h.aligned
  · rw [hcr, hc]
    exact h.absent
  · rw [hc] at hd
    exact h.entering d (hw he) hd
  · rw [hcr, hc]
    exact h.gate

omit [DecidableEq γ] in
/-- A new connection has no part in the budget either. -/
theorem untouched_add (h : s.credits.Untouched i) (tunnel : ClientTunnel γ) :
    (s.addConnection tunnel).credits.Untouched i := by
  refine ⟨fun d hd => ?_, h.2⟩
  rcases of_getElem?_concat hd with hd | ⟨-, rfl⟩
  · exact h.1 d hd
  · exact ⟨rfl, rfl, rfl, rfl, rfl⟩

/-- A connection is established; at the gate, if it is a candidate's. -/
theorem Gated.add {candidate : Bool} {initial : TunnelEventState γ} {worker : Worker γ}
    (h : s.Gated i)
    (hw : worker = .entering i → candidate = false ∧ s.worker = .entering i) :
    Gated { s.addConnection (.new candidate initial) with worker := worker } i := by
  refine ⟨?_, fun hi => ?_, fun d he hd => ?_, fun d hd hj => ?_⟩
  · simp [addConnection, h.aligned]
  · exact h.absent (by simp [addConnection] at hi; omega)
  · obtain ⟨hf, hold⟩ := hw he
    rcases of_getElem?_concat hd with hd | ⟨-, rfl⟩
    · exact h.entering d hold hd
    · exact hf
  · rcases of_getElem?_concat hd with hd | ⟨rfl, rfl⟩
    · have hg := h.gate d hd hj
      exact { hg with untouched := untouched_add hg.untouched (.new candidate initial) }
    · obtain rfl : candidate = true := hj
      refine ⟨rfl, by rintro ⟨⟩, by rintro ⟨⟩,
        untouched_add ⟨fun d hd => ?_, h.absent le_rfl⟩ (.new true initial)⟩
      rw [← h.aligned, List.getElem?_length] at hd
      cases hd

omit [DecidableEq γ] in
/-- Permits come to a connection only in the loop of its session task. -/
theorem acquires_of_calls {event : VisitorCredits.Event} (hs : c.tunnel.session ≠ .offering)
    (hc : c.calls event = true) : event.acquires = false := by
  cases event with
  | poll | offer | assign => exact (hs (of_decide_eq_true hc)).elim
  | _ => rfl

omit [DecidableEq γ] in
/-- A call on the Visitor credit: a candidate at the gate acquires nothing. -/
theorem Gated.credit {event : VisitorCredits.Event} {credits : ClientCredits} (h : s.Gated i)
    (hc : s.connections[j]? = some c) (hca : c.calls event = true)
    (hcr : s.credits.step (.on j event) = some credits) :
    Gated { s with credits := credits } i := by
  obtain ⟨d, d', hd, hst, hco⟩ := ClientCredits.of_step_on hcr
  refine ⟨?_, fun hi => ?_, h.entering, fun e he hj => ?_⟩
  · rw [hco, List.length_set]
    exact h.aligned
  · have hne : i ≠ j := by
      rintro rfl
      exact absurd hi (Nat.not_le.mpr (List.getElem?_eq_some_iff.mp hc).1)
    exact VisitorCredits.absent_step (h.absent hi) hne hst
  · have hg := h.gate e he hj
    refine { hg with untouched := hg.untouched.step ?_ hcr }
    rintro rfl
    cases he.symm.trans hc
    exact acquires_of_calls hg.session hca

section
omit [DecidableEq γ]
variable {credits : ClientCredits} {worker worker' : Worker γ} {run : ConnectedAddress γ}

theorem AtGate.drop (h : AtGate credits i c) : AtGate credits i c.drop := by
  refine { h with release := fun hs => h.release ?_ }
  simp only [Connection.drop, ClientTunnel.drop] at hs
  cases hc : c.tunnel.creditRelease <;> simp_all

theorem AtGate.task {tunnel : ClientTunnel γ} (h : AtGate credits i c)
    (ht : c.tunnel.TaskStep tunnel) : AtGate credits i { c with tunnel := tunnel } :=
  { h with
    release := ht.creditRelease.trans_ne h.release
    session := fun ho => (ht.session ho).elim h.session h.release }

/-- Only a run that is made is polled. -/
theorem AtGate.not_live (h : AtGate credits i c) (hl : c.run.live = true) : False := by
  rw [h.run] at hl
  cases hl

theorem not_entering_of_quiet (h : Quiet worker worker') (j : Nat) : worker' ≠ .entering j := by
  cases h <;> nofun

theorem not_entering_of_polls (h : Polls run i worker worker') (j : Nat) :
    worker' ≠ .entering j := by
  cases h <;> nofun

theorem not_entering_of_ends {result : ConnectionResult} (h : Ends run result i worker worker')
    (j : Nat) : worker' ≠ .entering j := by
  cases h <;> nofun

end

theorem Gated.workerMove (h : s.Gated i) (hso : s.Sound)
    (hn : s'.joined = some i → s.joined = some i) (hm : WorkerMove s s') : s'.Gated i := by
  cases hm with
  | @enter j c _ hw hc =>
    refine h.set rfl rfl hc rfl nofun ?_
    rintro rfl hca
    rw [h.entering c hw hc] at hca
    cases hca
  | quiet hq => exact h.same rfl rfl fun he => (not_entering_of_quiet hq i he).elim
  | polls hpo hc hl =>
    exact h.set rfl rfl hc rfl (fun he => (not_entering_of_polls hpo i he).elim)
      fun _ _ hg => (hg.not_live hl).elim
  | ends hen hc hl =>
    exact h.set rfl rfl hc rfl (fun he => (not_entering_of_ends hen i he).elim)
      fun _ _ hg => (hg.not_live hl).elim
  | establishes => exact h.add nofun
  | rejects _ _ hc => exact h.set rfl rfl hc rfl nofun fun _ _ hg => hg.drop
  | @joins run _ j _ _ hw ht hc =>
    refine h.set rfl rfl hc rfl nofun ?_
    rintro rfl
    -- While a connection has joined there is no candidate.
    have hjo : run.joined.isSome = true := by
      have hjo := hn rfl
      simp only [joined, hw, Worker.run, Option.bind_some, Option.map_eq_some_iff] at hjo
      obtain ⟨_, hr, -⟩ := hjo
      rw [hr]
      rfl
    rw [hso.fits.alone run (by rw [hw]; rfl) hjo] at ht
    cases ht
  | _ => exact h.same rfl rfl nofun

theorem Gated.move (h : s.Gated i) (hso : s.Sound) (hn : s'.joined = some i → s.joined = some i)
    (hm : Move s s') : s'.Gated i := by
  cases hm with
  | tunnel hc ht => exact h.set rfl rfl hc ht.candidate id fun _ _ hg => hg.task ht
  | credit hc hca hcr => exact h.credit hc hca hcr
  | connect => exact h.add fun he => ⟨rfl, he⟩
  | control => exact h.same rfl rfl id
  | worker hmo => exact h.workerMove hso hn hmo

/-- Without a step that joins it, a candidate stays at the gate. -/
theorem Gated.steps (hso : s₀.Sound) (h : s₀.Gated i)
    (hru : system.Steps (fun u a => ¬ Joins i u a) s₀ s) : s.Gated i := by
  refine (hru.invariant (I := fun u => u.Sound ∧ u.Gated i) ?_ ⟨hso, h⟩).2
  rintro u a v ⟨hso, hu⟩ hn hs
  refine ⟨hso.move (move_of_step hs), hu.move hso (fun hj => ?_) (move_of_step hs)⟩
  by_contra hne
  exact hn ⟨v, hs, hne, hj⟩

/-- Every run of a Connected address in which a candidate comes to have a part in the budget
takes a step that joins it, and takes each such step where the primary's hint names its
generation, is not paused and has no interruption that the worker has not seen, with the
address to be maintained and no shutdown requested. -/
theorem candidate_join_safe {control : Control} {initial : TunnelEventState γ} {budget : Nat}
    {as : List (Action γ)} (hrun : system.exec (start control initial budget) as = some s)
    (hc : s.connections[i]? = some c) (hcandidate : c.tunnel.candidate = true)
    (hcarries : s.Carries i) :
    system.Takes (Joins i) (start control initial budget) as ∧
    ∀ before a after u, as = before ++ a :: after →
      system.exec (start control initial budget) before = some u → Joins i u a → Permitted u i := by
  have hs := sound_start control initial budget
  refine ⟨Lts.takes_of_exec hrun fun hst => ?_, ?_⟩
  · have hg := (Gated.steps hs (gated_start control initial budget) hst).gate c hc hcandidate
    exact not_carries hg.untouched hcarries
  · rintro before a after u - hu ⟨v, hst, hn, hj⟩
    exact permitted_of_move (hs.reaches (.of_exec hu)) (move_of_step hst) hn hj

/-- The candidate joins and its session task offers a permit of the budget. -/
def joinAndOffer : List (Action Nat) :=
  warming ++ untilCandidate ++ [.attempted (.established ⟨2, none⟩), .handle,
    .pollRun none, .pollRun none, .session 1 .gate, .credit 1 .poll, .credit 1 .offer]

theorem candidate_join_safe_offering :
    (∃ s ∈ system.exec (start exampleControl ⟨1, some 2⟩ 1) joinAndOffer, s.Carries 1) ∧
      ∃ before a after u, joinAndOffer = before ++ a :: after ∧
        system.exec (start exampleControl ⟨1, some 2⟩ 1) before = some u ∧ Permitted u 1 := by
  have hru : ∃ s ∈ system.exec (start exampleControl ⟨1, some 2⟩ 1) joinAndOffer,
      (s.connections[1]?.map fun c => c.tunnel.candidate) = some true ∧
      (s.credits.connections[1]?.map fun c => c.limit) = some 1 := by
    decide
  obtain ⟨s, hs, hca, hl⟩ := hru
  obtain ⟨c, hc, hca⟩ := Option.map_eq_some_iff.mp hca
  obtain ⟨credits, hce, hl⟩ := Option.map_eq_some_iff.mp hl
  have hcr : s.Carries 1 := by
    refine .inl ⟨credits, hce, .inr (.inl ?_)⟩
    rw [hl]
    exact Nat.one_pos
  obtain ⟨⟨before, a, after, u, hsp, hu, hj⟩, hp⟩ := candidate_join_safe hs hc hca hcr
  exact ⟨⟨s, hs, hcr⟩, before, a, after, u, hsp, hu, hp before a after u hsp hu hj⟩

end Runewarp.Client.Stretch
