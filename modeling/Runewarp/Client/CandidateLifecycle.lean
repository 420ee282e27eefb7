import Mathlib.Data.List.Perm.Subperm
import Mathlib.Logic.Function.Basic
import Runewarp.Client.CandidateSteps

/-!
# The lifecycle of a candidate

The worker holds the runs of its primary and of the connection that has joined, and a run
is live exactly while the worker holds it and has not seen its end.  A candidate is there
only while nothing has joined, so what joins finds its place free.  The primary's hint
never names the primary's own generation, and a candidate reaches the generation it was
started for; the two runs are therefore at different generations.

All of this is about the phase of each run, the generation of each connection and what
the worker holds, so the connections enter only by their `profile`.
-/

namespace Runewarp.Client

open Tunnel

variable {γ : Type}

/-! ## What `run` returns -/

/-- A withdrawal protocol failure. -/
def protocolFailure? : ConnectionResult → Option TunnelConnectionEnd
  | .ok () => none
  | .error e => if e.withdrawalProtocolFailureMessage.isSome then some e else none

def firstFailure (ends : List ConnectionResult) : Option TunnelConnectionEnd :=
  ends.findSome? protocolFailure?

/-- The first withdrawal protocol failure, otherwise the result of the last to end. -/
def verdict (ends : List ConnectionResult) : Option ConnectionResult :=
  match firstFailure ends with
  | some e => some (.error e)
  | none => ends.getLast?

theorem keepProtocolFailure_eq (ends : List ConnectionResult) (result : ConnectionResult) :
    keepProtocolFailure (firstFailure ends) result = firstFailure (ends ++ [result]) := by
  simp only [firstFailure, List.findSome?_append, List.findSome?_cons, List.findSome?_nil]
  cases ends.findSome? protocolFailure? with
  | some e => cases result <;> simp [keepProtocolFailure]
  | none =>
    cases result with
    | ok => rfl
    | error e =>
      simp only [keepProtocolFailure, protocolFailure?, Option.isNone_none, true_and,
        Option.none_or]
      split <;> rfl

theorem verdict_concat (ends : List ConnectionResult) (result : ConnectionResult) :
    verdict (ends ++ [result]) = some ((firstFailure ends).elim result .error) := by
  have hl : (ends ++ [result]).getLast? = some result := by simp
  unfold verdict
  rw [← keepProtocolFailure_eq, hl]
  cases firstFailure ends with
  | some e => cases result <;> simp [keepProtocolFailure]
  | none =>
    cases result with
    | ok => rfl
    | error e =>
      simp only [keepProtocolFailure, Option.isNone_none, true_and, Option.elim_none]
      split
      · next heq =>
        split at heq
        · cases heq
          rfl
        · cases heq
      · rfl

/-! ## What the worker holds -/

namespace Worker

/-- The variables of the loop. -/
def run : Worker γ → Option (ConnectedAddress γ)
  | .entering _ | .returned _ => none
  | .polling run _ | .handling run _ => some run

/-- The connections whose runs the worker holds and has not seen the end of. -/
def active : Worker γ → List Nat
  | .entering _ | .returned _ => []
  | .handling run (.primaryEnded _) => run.joined.toList.map Active.connection
  | .handling run (.joinedEnded _) => [run.primary.connection]
  | .polling run _ | .handling run _ =>
    run.primary.connection :: run.joined.toList.map Active.connection

theorem length_active (worker : Worker γ) : worker.active.length ≤ 2 := by
  have hj : ∀ joined : Option Active, (joined.toList.map Active.connection).length ≤ 1 := by
    intro joined
    cases joined <;> simp
  cases worker with
  | polling run branch => exact Nat.succ_le_succ (hj run.joined)
  | handling run event =>
    cases event with
    | primaryEnded => exact Nat.le_succ_of_le (hj run.joined)
    | joinedEnded => simp [active]
    | _ => exact Nat.succ_le_succ (hj run.joined)
  | _ => simp [active]

/-- What the worker has kept of the ends so far. -/
def Reports (ends : List ConnectionResult) : Worker γ → Prop
  | .entering _ => ends = []
  | .handling run (.primaryEnded result) | .handling run (.joinedEnded result) =>
    ∃ before, ends = before ++ [result] ∧ run.protocolFailure = firstFailure before
  | .polling run _ | .handling run _ => run.protocolFailure = firstFailure ends
  | .returned result => verdict ends = some result

end Worker

variable {worker worker' : Worker γ}

theorem Quiet.active (h : Quiet worker worker') : worker'.active = worker.active := by
  cases h with
  | poll hr => simp only [Worker.active, hr.primary, hr.joined]
  | @take _ _ _ event hr he =>
    cases event with
    | primaryEnded | joinedEnded => cases he
    | _ => simp only [Worker.active, hr.primary, hr.joined]
  | @handle _ _ _ event hr he =>
    cases event with
    | primaryEnded | joinedEnded => cases he
    | _ => simp only [Worker.active, hr.primary, hr.joined]

theorem Quiet.reports {ends : List ConnectionResult} (h : Quiet worker worker')
    (hr : worker.Reports ends) : worker'.Reports ends := by
  cases h with
  | poll hru => exact hru.protocolFailure.trans hr
  | @take _ _ _ event hru he =>
    cases event with
    | primaryEnded | joinedEnded => cases he
    | _ => exact hru.protocolFailure.trans hr
  | @handle _ _ _ event hru he =>
    cases event with
    | primaryEnded | joinedEnded => cases he
    | _ => exact hru.protocolFailure.trans hr

theorem Quiet.run (h : Quiet worker worker') :
    ∃ run run', worker.run = some run ∧ worker'.run = some run' ∧ SameRuns run run' := by
  cases h with
  | poll hr | take hr | handle hr => exact ⟨_, _, rfl, rfl, hr⟩

/-! ## The runs -/

/-- The phase of the run and the generation of each connection. -/
abbrev Profile (γ : Type) := Nat → Option (RunPhase × γ)

/-- The run of connection `i` is live. -/
def Profile.Live (profile : Profile γ) (i : Nat) : Prop :=
  ∃ phase generation, profile i = some (phase, generation) ∧ phase.live = true

theorem Profile.live_update {profile : Profile γ} {i j : Nat} {phase : RunPhase} {generation : γ} :
    Profile.Live (Function.update profile i (some (phase, generation))) j ↔
      (j = i ∧ phase.live = true) ∨ (j ≠ i ∧ profile.Live j) := by
  unfold Profile.Live
  by_cases hij : j = i
  · subst hij
    simp
  · simp [hij]

/-- The primary and what has joined are at different generations. -/
def Distinct (profile : Profile γ) (run : ConnectedAddress γ) : Prop :=
  ∀ joined, run.joined = some joined →
    ∃ phase generation phase' generation', generation ≠ generation' ∧
      profile run.primary.connection = some (phase, generation) ∧
      profile joined.connection = some (phase', generation')

theorem Distinct.mono {profile profile' : Profile γ} {run : ConnectedAddress γ}
    (h : Distinct profile run)
    (hk : ∀ i phase generation, profile i = some (phase, generation) →
      ∃ phase', profile' i = some (phase', generation)) : Distinct profile' run := by
  intro joined hjo
  obtain ⟨phase, generation, phase', generation', hne, hp, hj⟩ := h joined hjo
  obtain ⟨q, hq⟩ := hk _ _ _ hp
  obtain ⟨q', hq'⟩ := hk _ _ _ hj
  exact ⟨q, generation, q', generation', hne, hq, hq'⟩

/-- How the runs and the worker stand to each other. -/
structure Fits (profile : Profile γ) (worker : Worker γ) : Prop where
  live : ∀ i, profile.Live i ↔ i ∈ worker.active
  alone : ∀ run, worker.run = some run → run.joined.isSome = true → run.candidate = .idle
  distinct : ∀ run, worker.run = some run → Distinct profile run
  attempt : ∀ run i, worker = .handling run (.attempted (.connected i)) →
    ∃ target, run.candidate.target = some target ∧ profile i = some (.unstarted, target)

namespace Fits

variable {profile : Profile γ} {worker worker' : Worker γ} {run : ConnectedAddress γ}

theorem congr {profile' : Profile γ} (heq : profile' = profile) (h : Fits profile worker) :
    Fits profile' worker :=
  heq ▸ h

theorem connection_ne (h : Fits profile worker) {joined : Active} (hr : worker.run = some run)
    (hjo : run.joined = some joined) : joined.connection ≠ run.primary.connection := by
  obtain ⟨phase, generation, phase', generation', hne, hp, hj⟩ := h.distinct _ hr joined hjo
  intro heq
  rw [heq, hp] at hj
  cases hj
  exact hne rfl

variable {generation target : γ} {i : Nat} {phase : RunPhase} {result : ConnectionResult}
  {branch : SelectBranch}

theorem grow (h : Fits profile worker) {n : Nat} (hn : profile n = none) :
    Fits (Function.update profile n (some (.unstarted, generation))) worker := by
  have hold : ∀ {i p}, profile i = some p →
      Function.update profile n (some (.unstarted, generation)) i = some p := by
    intro i p hp
    have hne : i ≠ n := by
      rintro rfl
      rw [hn] at hp
      cases hp
    rwa [Function.update_of_ne hne]
  refine ⟨fun i => ?_, h.alone, ?_, ?_⟩
  · rw [Profile.live_update, ← h.live]
    constructor
    · rintro (⟨-, hl⟩ | ⟨-, hl⟩)
      · cases hl
      · exact hl
    · rintro ⟨phase, g, hi, hl⟩
      refine .inr ⟨?_, phase, g, hi, hl⟩
      rintro rfl
      rw [hn] at hi
      cases hi
  · intro run hr
    exact (h.distinct run hr).mono fun i phase g hi => ⟨phase, hold hi⟩
  · intro run i hw
    obtain ⟨target, ht, hi⟩ := h.attempt run i hw
    exact ⟨target, ht, hold hi⟩

theorem quiet (h : Fits profile worker) (hq : Quiet worker worker') : Fits profile worker' := by
  obtain ⟨run, run', hru, hr', hs⟩ := hq.run
  refine ⟨fun i => ?_, ?_, ?_, ?_⟩
  · rw [hq.active]
    exact h.live i
  · intro r hr hj
    rw [hr'] at hr
    cases hr
    rw [hs.joined] at hj
    exact hs.candidate hj (h.alone run hru hj)
  · intro r hr joined hj
    rw [hr'] at hr
    cases hr
    rw [hs.joined] at hj
    rw [hs.primary]
    exact h.distinct run hru joined hj
  · rintro r i rfl
    cases hq with
    | take _ he => cases he

/-- The phase of a run changes, and nothing else of the profile. -/
theorem distinct_update (h : Fits profile worker) {phase' : RunPhase}
    (hi : profile i = some (phase, generation)) (hr : worker.run = some run) :
    Distinct (Function.update profile i (some (phase', generation))) run := by
  refine (h.distinct run hr).mono fun j p g hj => ?_
  by_cases hji : j = i
  · subst hji
    rw [hi] at hj
    cases hj
    exact ⟨phase', Function.update_self ..⟩
  · exact ⟨p, by rwa [Function.update_of_ne hji]⟩

theorem polls (h : Fits profile worker) (hp : Stretch.Polls run i worker worker')
    (hi : profile i = some (phase, generation)) (hl : phase.live = true) :
    Fits (Function.update profile i (some (.polled, generation))) worker' := by
  have hs : worker'.active = worker.active ∧ worker'.run = some run ∧
      worker.run = some run ∧ ∀ r i, worker' ≠ .handling r (.attempted (.connected i)) := by
    cases hp with
    | _ => exact ⟨rfl, rfl, rfl, fun _ _ h => by cases h⟩
  obtain ⟨hac, hr', hru, ha⟩ := hs
  refine ⟨fun j => ?_, ?_, ?_, fun r i hw => (ha r i hw).elim⟩
  · rw [Profile.live_update, hac, ← h.live]
    constructor
    · rintro (⟨rfl, -⟩ | ⟨-, hj⟩)
      · exact ⟨phase, generation, hi, hl⟩
      · exact hj
    · intro hj
      by_cases hji : j = i
      · exact .inl ⟨hji, rfl⟩
      · exact .inr ⟨hji, hj⟩
  · rw [hr', ← hru]
    exact h.alone
  · intro r hr
    rw [hr', ← hru] at hr
    exact h.distinct_update hi hr

theorem ends (h : Fits profile worker) (he : Stretch.Ends run result i worker worker')
    (hi : profile i = some (phase, generation)) :
    Fits (Function.update profile i (some (.ended, generation))) worker' := by
  have hs : worker.run = some run ∧ worker'.run = some run ∧
      (∀ j, j ∈ worker'.active ↔ j ≠ i ∧ j ∈ worker.active) ∧
      ∀ r i, worker' ≠ .handling r (.attempted (.connected i)) := by
    cases he with
    | primary =>
      refine ⟨rfl, rfl, fun j => ?_, fun _ _ h => by cases h⟩
      cases hj : run.joined with
      | none => simp [Worker.active, hj]
      | some joined =>
        have hne := h.connection_ne rfl hj
        simp only [Worker.active, hj, Option.toList_some, List.map_cons, List.map_nil,
          List.mem_cons, List.not_mem_nil, or_false]
        grind
    | joined hj =>
      refine ⟨rfl, rfl, fun j => ?_, fun _ _ h => by cases h⟩
      have hne := h.connection_ne rfl hj
      simp only [Worker.active, hj, Option.toList_some, List.map_cons, List.map_nil,
        List.mem_cons, List.not_mem_nil, or_false]
      grind
  obtain ⟨hru, hr', hac, ha⟩ := hs
  refine ⟨fun j => ?_, ?_, ?_, fun r i hw => (ha r i hw).elim⟩
  · rw [Profile.live_update, hac, ← h.live]
    simp [RunPhase.live]
  · rw [hr', ← hru]
    exact h.alone
  · intro r hr
    rw [hr', ← hru] at hr
    exact h.distinct_update hi hr

theorem of_single (hl : ∀ j, profile.Live j ↔ j = run.primary.connection) (hj : run.joined = none) :
    Fits profile (.polling run branch) := by
  refine ⟨fun j => ?_, ?_, ?_, fun _ _ h => by cases h⟩
  · rw [hl]
    simp [Worker.active, hj]
  · rintro r ⟨⟩ hs
    rw [hj] at hs
    cases hs
  · rintro r ⟨⟩ joined hs
    rw [hj] at hs
    cases hs

theorem enter (h : Fits profile (.entering i)) (hc : run.primary.connection = i)
    (hj : run.joined = none) :
    Fits (Function.update profile i (some (.started, generation))) (.polling run branch) := by
  refine of_single (fun j => ?_) hj
  have hi : ¬ profile.Live j := by
    rw [h.live]
    exact List.not_mem_nil
  rw [Profile.live_update]
  simp [hc, hi, RunPhase.live]

theorem returns {result' : ConnectionResult}
    (h : Fits profile (.handling run (.primaryEnded result))) (hj : run.joined = none) :
    Fits profile (.returned result') := by
  refine ⟨fun j => ?_, fun _ h => (by cases h), fun _ h => (by cases h), fun _ _ h => by cases h⟩
  rw [h.live]
  simp [Worker.active, hj]

theorem handsOver {next : Active} {run' : ConnectedAddress γ}
    (h : Fits profile (.handling run (.primaryEnded result))) (hj : run.joined = some next)
    (hp : run'.primary = next) (hn : run'.joined = none) : Fits profile (.polling run' branch) := by
  refine of_single (fun j => ?_) hn
  rw [h.live]
  simp [Worker.active, hj, hp]

theorem leaves {run' : ConnectedAddress γ} (h : Fits profile (.handling run (.joinedEnded result)))
    (hp : run'.primary = run.primary) (hn : run'.joined = none) :
    Fits profile (.polling run' branch) := by
  refine of_single (fun j => ?_) hn
  rw [h.live]
  simp [Worker.active, hp]

theorem joined_eq_none (h : Fits profile worker) (hr : worker.run = some run)
    (ht : run.candidate.target = some target) : run.joined = none := by
  by_contra hj
  have hi := h.alone run hr (Option.isSome_iff_ne_none.mpr hj)
  rw [hi] at ht
  cases ht

theorem establishes {n : Nat} (h : Fits profile (.polling run .candidate))
    (ht : run.candidate.target = some target) (hn : profile n = none) :
    Fits (Function.update profile n (some (.unstarted, target)))
      (.handling run (.attempted (.connected n))) := by
  have hg : Fits (Function.update profile n (some (.unstarted, target))) _ := h.grow hn
  refine ⟨hg.live, hg.alone, hg.distinct, ?_⟩
  rintro r i ⟨⟩
  exact ⟨target, ht, Function.update_self ..⟩

/-- While an attempt is being settled the primary's run is the one that is live. -/
theorem live_attempted {outcome : CandidateOutcome}
    (h : Fits profile (.handling run (.attempted outcome)))
    (ht : run.candidate.target = some target) (j : Nat) :
    profile.Live j ↔ j = run.primary.connection := by
  rw [h.live]
  simp [Worker.active, h.joined_eq_none rfl ht]

theorem rejects {candidate : Candidate γ}
    (h : Fits profile (.handling run (.attempted (.connected i))))
    (ht : run.candidate.target = some target) :
    Fits profile (.polling { run with candidate := candidate } branch) := by
  have hj := h.joined_eq_none rfl ht
  exact of_single (h.live_attempted ht) hj

theorem joins {joined : Active} (h : Fits profile (.handling run (.attempted (.connected i))))
    (ht : run.candidate.target = some target)
    (hp : profile run.primary.connection = some (phase, generation)) (hne : generation ≠ target)
    (hj : joined.connection = i) : Fits (Function.update profile i (some (.started, target)))
      (.polling { run with candidate := .idle, joined := some joined } branch) := by
  obtain ⟨target', ht', hi⟩ := h.attempt run i rfl
  have ho : run.primary.connection ≠ i := by
    intro heq
    rw [heq, hi] at hp
    cases hp
    rw [ht] at ht'
    cases ht'
    exact hne rfl
  refine ⟨fun j => ?_, fun r hr _ => by cases hr; rfl, ?_, fun _ _ h => by cases h⟩
  · rw [Profile.live_update, h.live_attempted ht]
    simp only [RunPhase.live, and_true, Worker.active, Option.toList_some, List.map_cons,
      List.map_nil, List.mem_cons, List.not_mem_nil, or_false, hj]
    grind
  · rintro r ⟨⟩ a ⟨⟩
    refine ⟨phase, generation, .started, target, hne, ?_, ?_⟩
    · rwa [Function.update_of_ne ho]
    · rw [hj]
      exact Function.update_self ..

end Fits

namespace Stretch

variable [DecidableEq γ] {s s' : Stretch γ}

def profile (s : Stretch γ) : Profile γ :=
  fun i => s.connections[i]?.map fun c => (c.run, c.tunnel.generation)

structure Sound (s : Stretch γ) : Prop where
  fits : Fits s.profile s.worker
  hinted : ∀ c ∈ s.connections, c.tunnel.Sound
  reports : s.worker.Reports s.ends

/-! ## Profiles -/

section
variable {i : Nat} {c c' : Connection γ} {worker : Worker γ} {ends : List ConnectionResult}

omit [DecidableEq γ]

theorem profile_eq (hc : s.connections[i]? = some c) :
    s.profile i = some (c.run, c.tunnel.generation) := by
  simp [profile, hc]

theorem profile_set (hc : s.connections[i]? = some c) :
    profile { s with connections := s.connections.set i c', worker := worker, ends := ends } =
      Function.update s.profile i (some (c'.run, c'.tunnel.generation)) := by
  obtain ⟨hlt, -⟩ := List.getElem?_eq_some_iff.mp hc
  funext j
  by_cases hji : j = i
  · subst hji
    simp [profile, hlt]
  · simp [profile, hji, Ne.symm hji]

theorem profile_set_same (hc : s.connections[i]? = some c) (hr : c'.run = c.run)
    (hg : c'.tunnel.generation = c.tunnel.generation) :
    profile { s with connections := s.connections.set i c', worker := worker } = s.profile := by
  rw [profile_set hc, hr, hg, ← profile_eq hc]
  exact Function.update_eq_self ..

theorem profile_length (s : Stretch γ) : s.profile s.connections.length = none := by
  simp [profile]

theorem profile_addConnection {tunnel : ClientTunnel γ} :
    profile { s.addConnection tunnel with worker := worker } =
      Function.update s.profile s.connections.length (some (.unstarted, tunnel.generation)) := by
  funext j
  by_cases hj : j = s.connections.length
  · subst hj
    simp [profile, addConnection]
  · simp only [profile, addConnection, Function.update_of_ne hj, List.getElem?_append]
    split
    · rfl
    · next hlt =>
      have hn : s.connections[j]? = none := by simp; omega
      simp [hn]
      omega

end

/-! ## Steps -/

/-- The hint that lets a candidate join does not name the primary's generation. -/
theorem generation_ne_of_stillHints {active : Active} {tunnel : ClientTunnel γ} {target : γ}
    (h : active.stillHints tunnel target = true) (hs : tunnel.Sound) :
    tunnel.generation ≠ target := by
  simp only [Active.stillHints, Bool.and_eq_true, decide_eq_true_eq] at h
  rintro rfl
  exact hs h.1.1

theorem Sound.workerMove (h : s.Sound) (hm : WorkerMove s s') : s'.Sound := by
  have hf := h.fits
  have hr := h.reports
  cases hm with
  | enter hw hc hp hj hfa =>
    rw [hw] at hf hr
    have hs := h.hinted _ (List.mem_of_getElem? hc)
    refine ⟨.congr (profile_set hc) (hf.enter hp hj),
      forall_mem_set h.hinted hs, ?_⟩
    have he : s.ends = [] := hr
    simp only [loop, Worker.Reports, hfa, he]
    rfl
  | quiet hq => exact ⟨hf.quiet hq, h.hinted, hq.reports hr⟩
  | polls hpo hc hl =>
    have hs := h.hinted _ (List.mem_of_getElem? hc)
    have hpl := hf.polls hpo (profile_eq hc) hl
    refine ⟨.congr (profile_set hc) hpl, forall_mem_set h.hinted hs, ?_⟩
    revert hr
    generalize s.worker = worker at hpo
    cases hpo with
    | _ => exact id
  | ends he hc hl =>
    have hs := h.hinted _ (List.mem_of_getElem? hc)
    have hen := hf.ends he (profile_eq hc)
    refine ⟨.congr (profile_set hc) hen, forall_mem_set h.hinted hs, ?_⟩
    revert hr
    generalize s.worker = worker at he
    cases he with
    | _ => exact fun hr => ⟨s.ends, rfl, hr⟩
  | returns hw hj =>
    rw [hw] at hf hr
    obtain ⟨before, he, hfa⟩ := hr
    refine ⟨hf.returns hj, h.hinted, ?_⟩
    simp only [Worker.Reports, he, hfa, verdict_concat]
  | handsOver hw hj =>
    rw [hw] at hf hr
    obtain ⟨before, he, hfa⟩ := hr
    refine ⟨hf.handsOver hj rfl rfl, h.hinted, ?_⟩
    simp only [loop, Worker.Reports, he, hfa, keepProtocolFailure_eq]
  | leaves hw =>
    rw [hw] at hf hr
    obtain ⟨before, he, hfa⟩ := hr
    refine ⟨hf.leaves rfl rfl, h.hinted, ?_⟩
    simp only [loop, Worker.Reports, he, hfa, keepProtocolFailure_eq]
  | establishes hw hca hg =>
    rw [hw] at hf hr
    subst hg
    have ht : _ = some _ := congrArg Candidate.target hca
    have hn := hf.establishes ht s.profile_length
    refine ⟨.congr profile_addConnection hn, ?_, hr⟩
    exact forall_mem_concat h.hinted (ClientTunnel.sound_new true _)
  | rejects hw ht hc =>
    rw [hw] at hf hr
    have hs := h.hinted _ (List.mem_of_getElem? hc)
    refine ⟨.congr (profile_set_same hc rfl rfl) (hf.rejects ht),
      forall_mem_set h.hinted hs, hr⟩
  | @joins run target i c primary hw ht hc hp ha hh =>
    rw [hw] at hf hr
    have hs := h.hinted _ (List.mem_of_getElem? hc)
    have hne := generation_ne_of_stillHints hh (h.hinted _ (List.mem_of_getElem? hp))
    have hg : c.tunnel.generation = target := by
      obtain ⟨target', ht', hi⟩ := hf.attempt run i rfl
      rw [profile_eq hc] at hi
      rw [ht] at ht'
      cases ht'
      exact congrArg Prod.snd (Option.some.inj hi)
    have hst : (Active.start i c.tunnel).connection = i := rfl
    subst hg
    exact ⟨.congr (profile_set hc) (hf.joins ht (profile_eq hp) hne hst),
      forall_mem_set h.hinted hs, hr⟩

theorem Sound.move (h : s.Sound) (hm : Move s s') : s'.Sound := by
  cases hm with
  | tunnel hc ht =>
    refine ⟨.congr (profile_set_same hc rfl ht.generation) h.fits, ?_, h.reports⟩
    exact forall_mem_set h.hinted (ht.sound (h.hinted _ (List.mem_of_getElem? hc)))
  | connect =>
    refine ⟨.congr profile_addConnection (h.fits.grow s.profile_length), ?_, h.reports⟩
    exact forall_mem_concat h.hinted (ClientTunnel.sound_new false _)
  | worker hmo => exact h.workerMove hmo
  | _ => exact ⟨h.fits, h.hinted, h.reports⟩

theorem sound_start (control : Control) (initial : TunnelEventState γ) (budget : Nat) :
    (start control initial budget).Sound := by
  refine ⟨⟨fun i => ?_, fun _ h => (by cases h), fun _ h => (by cases h),
    fun _ _ h => by cases h⟩, ?_, rfl⟩
  · constructor
    · rintro ⟨phase, generation, hi, hl⟩
      cases i with
      | zero =>
        cases hi
        cases hl
      | succ => cases hi
    · intro hm
      cases hm
  · intro c hc
    rw [List.mem_singleton.mp hc]
    exact ClientTunnel.sound_new false initial

theorem Sound.reaches (h : s.Sound) (hr : system.Reaches s s') : s'.Sound :=
  hr.invariant (I := Sound) (fun _ _ _ hu _ hs => hu.move (move_of_step hs)) h

/-! ## The lifecycle -/

section
omit [DecidableEq γ]

/-- The connections whose runs have been made and are not complete. -/
def liveRuns (s : Stretch γ) : List Nat :=
  (List.range s.connections.length).filter fun i => s.connections[i]?.any fun c => c.run.live

def generationOf (s : Stretch γ) (i : Nat) : Option γ :=
  s.connections[i]?.map fun c => c.tunnel.generation

def runOf (s : Stretch γ) (i : Nat) : Option RunPhase := s.connections[i]?.map fun c => c.run

variable {i j : Nat} {worker : Worker γ}

theorem mem_liveRuns : i ∈ s.liveRuns ↔ s.profile.Live i := by
  simp only [liveRuns, List.mem_filter, List.mem_range, Profile.Live, profile]
  cases hc : s.connections[i]? with
  | none => simp
  | some c =>
    obtain ⟨hlt, -⟩ := List.getElem?_eq_some_iff.mp hc
    simp [hlt]

/-- The connection `i` is the primary, or it has joined. -/
def Holds (s : Stretch γ) (i : Nat) : Prop :=
  ∃ run, s.worker.run = some run ∧
    (run.primary.connection = i ∨ ∃ joined, run.joined = some joined ∧ joined.connection = i)

theorem Sound.held (h : s.Sound) (hi : i ∈ s.liveRuns) : s.Holds i := by
  have ha := (h.fits.live i).mp (mem_liveRuns.mp hi)
  unfold Holds
  cases hw : s.worker with
  | polling run branch =>
    rw [hw] at ha
    refine ⟨run, rfl, ?_⟩
    simpa [Worker.active, eq_comm] using ha
  | handling run event =>
    rw [hw] at ha
    refine ⟨run, rfl, ?_⟩
    cases event with
    | primaryEnded => exact .inr (by simpa [Worker.active] using ha)
    | joinedEnded => exact .inl (by simpa [Worker.active, eq_comm] using ha)
    | _ => simpa [Worker.active, eq_comm] using ha
  | _ =>
    rw [hw] at ha
    cases ha

theorem Sound.two (h : s.Sound) : s.liveRuns.length ≤ 2 := by
  have hn : s.liveRuns.Nodup := List.nodup_range.filter _
  have hs : s.liveRuns ⊆ s.worker.active := fun i hi =>
    (h.fits.live i).mp (mem_liveRuns.mp hi)
  exact (List.subperm_of_subset hn hs).length_le.trans s.worker.length_active

/-- The primary and what has joined are the runs there are. -/
theorem Sound.generations (h : s.Sound) (hi : i ∈ s.liveRuns) (hj : j ∈ s.liveRuns) (hne : i ≠ j) :
    s.generationOf i ≠ s.generationOf j := by
  have hge : ∀ {i phase generation}, s.profile i = some (phase, generation) →
      s.generationOf i = some generation := by
    intro i phase generation hpr
    obtain ⟨c, hc, heq⟩ := Option.map_eq_some_iff.mp hpr
    cases heq
    simp [generationOf, hc]
  obtain ⟨run, hr, hs⟩ := h.held hi
  obtain ⟨run', hr', hs'⟩ := h.held hj
  rw [hr] at hr'
  cases hr'
  rcases hs with rfl | ⟨joined, hjo, rfl⟩
  · rcases hs' with rfl | ⟨joined, hjo, rfl⟩
    · exact (hne rfl).elim
    · obtain ⟨_, g, _, g', hg, hp, hq⟩ := h.fits.distinct run hr joined hjo
      rw [hge hp, hge hq]
      simpa using hg
  · rcases hs' with rfl | ⟨joined', hj', rfl⟩
    · obtain ⟨_, g, _, g', hg, hp, hq⟩ := h.fits.distinct run hr joined hjo
      rw [hge hp, hge hq]
      simpa using hg.symm
    · rw [hjo] at hj'
      cases hj'
      exact (hne rfl).elim

theorem live_addConnection {tunnel : ClientTunnel γ} (h : s.profile.Live i) :
    Profile.Live (profile { s.addConnection tunnel with worker := worker }) i := by
  rw [profile_addConnection, Profile.live_update]
  refine .inr ⟨?_, h⟩
  rintro rfl
  obtain ⟨phase, generation, hi, -⟩ := h
  rw [profile_length] at hi
  cases hi

theorem live_set {c c' : Connection γ} {ends : List ConnectionResult}
    (hc : s.connections[i]? = some c) (hr : c'.run.live = true) (h : s.profile.Live j) :
    Profile.Live (profile
      { s with connections := s.connections.set i c', worker := worker, ends := ends }) j := by
  rw [profile_set hc, Profile.live_update]
  by_cases hji : j = i
  · exact .inl ⟨hji, hr⟩
  · exact .inr ⟨hji, h⟩

theorem live_set_same {c c' : Connection γ} (hc : s.connections[i]? = some c) (hr : c'.run = c.run)
    (hg : c'.tunnel.generation = c.tunnel.generation) (h : s.profile.Live j) : Profile.Live (profile
      { s with connections := s.connections.set i c', worker := worker }) j := by
  rw [profile_set_same hc hr hg]
  exact h

end

/-- A live run stays live until it completes. -/
theorem live_of_move {i : Nat} (hm : Move s s') (h : s.profile.Live i) :
    s'.profile.Live i ∨ s'.runOf i = some .ended ∧ ∃ result, s'.ends = s.ends ++ [result] := by
  cases hm with
  | tunnel hc ht => exact .inl (live_set_same hc rfl ht.generation h)
  | connect => exact .inl (live_addConnection h)
  | worker hmo =>
    cases hmo with
    | enter _ hc => exact .inl (live_set hc rfl h)
    | polls _ hc => exact .inl (live_set hc rfl h)
    | joins _ _ hc => exact .inl (live_set hc rfl h)
    | establishes => exact .inl (live_addConnection h)
    | rejects _ _ hc => exact .inl (live_set_same hc rfl rfl h)
    | @ends _ k c _ result _ hc _ =>
      by_cases hik : i = k
      · subst hik
        obtain ⟨hlt, -⟩ := List.getElem?_eq_some_iff.mp hc
        exact .inr ⟨by simp [runOf, hlt], result, rfl⟩
      · left
        rw [profile_set hc, Profile.live_update]
        exact .inr ⟨hik, h⟩
    | _ => exact .inl h
  | _ => exact .inl h

structure Lifecycle (s : Stretch γ) : Prop where
  candidate : ∀ run, s.worker.run = some run → run.candidate ≠ .idle → run.joined = none
  two : s.liveRuns.length ≤ 2
  generations : ∀ i ∈ s.liveRuns, ∀ j ∈ s.liveRuns, i ≠ j → s.generationOf i ≠ s.generationOf j
  held : ∀ i ∈ s.liveRuns, s.Holds i
  /-- A live run stays live until it completes. -/
  completes : ∀ a t i, s.step a = some t → i ∈ s.liveRuns →
    i ∈ t.liveRuns ∨ t.runOf i = some .ended ∧ ∃ result, t.ends = s.ends ++ [result]
  takesOver : ∀ run result next, s.worker = .handling run (.primaryEnded result) →
    run.joined = some next →
    ∃ t run', s.step .handle = some t ∧ t.worker = .polling run' .primary ∧
      run'.primary = next ∧ run'.joined = none
  returns : ∀ result, s.worker = .returned result → verdict s.ends = some result

theorem Sound.takesOver {run : ConnectedAddress γ} {result : ConnectionResult} {next : Active}
    (h : s.Sound) (hw : s.worker = .handling run (.primaryEnded result))
    (hj : run.joined = some next) :
    ∃ t run', s.step .handle = some t ∧ t.worker = .polling run' .primary ∧
      run'.primary = next ∧ run'.joined = none := by
  have hl : s.profile.Live next.connection := by
    rw [h.fits.live, hw]
    simp [Worker.active, hj]
  obtain ⟨phase, generation, hi, -⟩ := hl
  obtain ⟨c, hc, -⟩ := Option.map_eq_some_iff.mp hi
  cases hs : s.step .handle with
  | none =>
    simp only [step, workerStep, hw, handle, hj, reconciled, hc] at hs
    cases hs
  | some t =>
    simp only [step, workerStep, hw, handle, hj] at hs
    obtain ⟨candidate, rfl, -⟩ := of_reconciled hs
    exact ⟨_, _, rfl, rfl, rfl, rfl⟩

/-- Along every run of a Connected address: a candidate is there only while nothing has
joined; at most two runs are live, at different generations, and the worker holds each of
them until it completes; what has joined takes over from the primary; and what is
returned is the first withdrawal protocol failure, otherwise the last result. -/
theorem candidate_lifecycle {control : Control} {initial : TunnelEventState γ} {budget : Nat}
    (hrun : system.Reaches (start control initial budget) s) : s.Lifecycle := by
  have h := (sound_start control initial budget).reaches hrun
  refine ⟨?_, h.two, fun i hi j hj => h.generations hi hj, fun i hi => h.held hi, ?_,
    fun run result next => h.takesOver, ?_⟩
  · intro run hw hc
    by_contra hjo
    exact hc (h.fits.alone run hw (Option.isSome_iff_ne_none.mpr hjo))
  · intro a t i hs hi
    rw [mem_liveRuns] at hi ⊢
    exact live_of_move (move_of_step hs) hi
  · intro result hw
    have hr := h.reports
    rwa [hw] at hr

/-- An address that is to be maintained. -/
def exampleControl : Control where
  maintenance := .new .maintain
  orderly := .new 0

/-- The branches before the candidate's are pending, with nothing joined. -/
def untilCandidate : List (Action Nat) := [.pollRun none, .poll, .poll, .poll, .poll]

/-- A candidate toward generation 2 is started. -/
def warming : List (Action Nat) := [.enter] ++ untilCandidate ++ [.delayElapsed, .handle]

/-- The primary fails its withdrawal after a candidate has joined, and its failure is what
the joined connection's end returns. -/
theorem candidate_lifecycle_handed_over :
    ∃ s : Stretch Nat, system.Reaches (start exampleControl ⟨1, some 2⟩ 1) s ∧
      s.ends = [.error ⟨.withdrawalProtocolFailure, some "unexpected status"⟩, .ok ()] ∧
      s.worker = .returned (.error ⟨.withdrawalProtocolFailure, some "unexpected status"⟩) ∧
      s.Lifecycle := by
  have hru : ∃ s ∈ system.exec (start exampleControl ⟨1, some 2⟩ 1)
      (warming ++ untilCandidate ++ [.attempted (.established ⟨2, none⟩), .handle,
        .pollRun (some (.error ⟨.withdrawalProtocolFailure, some "unexpected status"⟩)), .handle,
        .pollRun (some (.ok ())), .handle]),
      s.ends = [.error ⟨.withdrawalProtocolFailure, some "unexpected status"⟩, .ok ()] ∧
      s.worker = .returned (.error ⟨.withdrawalProtocolFailure, some "unexpected status"⟩) := by
    decide
  obtain ⟨s, hs, he, hw⟩ := hru
  have hr := Lts.Reaches.of_exec hs
  exact ⟨s, hr, he, hw, candidate_lifecycle hr⟩

end Stretch

end Runewarp.Client
