import Runewarp.Client.ConnectedAddress

/-!
# What a step of a Connected address can do

The steps are inverted once here.  Most of what the worker does leaves its runs alone:
it polls a branch, or it changes its candidate, its receivers or its flags (`Quiet`).
The other moves of the worker make a run, poll it, see it end, or deal with the
connection of a candidate attempt (`WorkerMove`).
-/

namespace Runewarp.Client

open Tunnel

variable {γ : Type}

namespace SelectEvent

/-- A run has ended. -/
def isEnd : SelectEvent → Bool
  | .primaryEnded _ | .joinedEnded _ => true
  | _ => false

/-- A run has ended, or an attempt has a connection. -/
def hasConnection : SelectEvent → Bool
  | .primaryEnded _ | .joinedEnded _ | .attempted (.connected _) => true
  | _ => false

end SelectEvent

/-- The runs of the loop and what is kept of them are the same. -/
structure SameRuns (run run' : ConnectedAddress γ) : Prop where
  primary : run'.primary.connection = run.primary.connection
  joined : run'.joined = run.joined
  protocolFailure : run'.protocolFailure = run.protocolFailure
  candidate : run.joined.isSome = true → run.candidate = .idle → run'.candidate = .idle

inductive Quiet : Worker γ → Worker γ → Prop where
  | poll {run run' : ConnectedAddress γ} {branch branch' : SelectBranch} :
      SameRuns run run' → Quiet (.polling run branch) (.polling run' branch')
  | take {run run' : ConnectedAddress γ} {branch : SelectBranch} {event : SelectEvent} :
      SameRuns run run' → event.hasConnection = false →
      Quiet (.polling run branch) (.handling run' event)
  | handle {run run' : ConnectedAddress γ} {branch : SelectBranch} {event : SelectEvent} :
      SameRuns run run' → event.isEnd = false → Quiet (.handling run event) (.polling run' branch)

namespace Stretch

variable [DecidableEq γ] {s s' : Stretch γ}

/-- A run of the worker is polled: the connection, and where the worker was and is. -/
inductive Polls (run : ConnectedAddress γ) : Nat → Worker γ → Worker γ → Prop where
  | primary : Polls run run.primary.connection (.polling run .primary) (.polling run .joined)
  | joined {active : Active} : run.joined = some active →
      Polls run active.connection (.polling run .joined) (.polling run .shutdown)

/-- A run of the worker returns `result`. -/
inductive Ends (run : ConnectedAddress γ) (result : ConnectionResult) :
    Nat → Worker γ → Worker γ → Prop where
  | primary :
      Ends run result run.primary.connection (.polling run .primary)
        (.handling run (.primaryEnded result))
  | joined {active : Active} : run.joined = some active →
      Ends run result active.connection (.polling run .joined)
        (.handling run (.joinedEnded result))

inductive WorkerMove (s : Stretch γ) : Stretch γ → Prop where
  | enter {i : Nat} {c : Connection γ} {run : ConnectedAddress γ} :
      s.worker = .entering i → s.connections[i]? = some c →
      run.primary.connection = i → run.joined = none → run.protocolFailure = none →
      WorkerMove s (loop { s with connections := s.connections.set i c.startRun } run)
  | quiet {worker : Worker γ} : Quiet s.worker worker → WorkerMove s { s with worker := worker }
  | polls {run : ConnectedAddress γ} {i : Nat} {c : Connection γ} {worker : Worker γ} :
      Polls run i s.worker worker → s.connections[i]? = some c → c.run.live = true →
      WorkerMove s { s with
        connections := s.connections.set i ⟨c.tunnel.releaseCredit, .polled⟩
        worker := worker }
  | ends {run : ConnectedAddress γ} {i : Nat} {c : Connection γ} {worker : Worker γ}
      {result : ConnectionResult} :
      Ends run result i s.worker worker → s.connections[i]? = some c → c.run.live = true →
      WorkerMove s { s with
        connections := s.connections.set i ⟨c.tunnel.releaseCredit.drop, .ended⟩
        ends := s.ends ++ [result]
        worker := worker }
  | returns {run : ConnectedAddress γ} {result : ConnectionResult} :
      s.worker = .handling run (.primaryEnded result) → run.joined = none →
      WorkerMove s { s with worker := .returned (run.protocolFailure.elim result .error) }
  | handsOver {run : ConnectedAddress γ} {result : ConnectionResult} {next : Active}
      {candidate : Candidate γ} :
      s.worker = .handling run (.primaryEnded result) → run.joined = some next →
      WorkerMove s (s.loop { run with
        primary := next
        joined := none
        protocolFailure := keepProtocolFailure run.protocolFailure result
        candidate := candidate })
  | leaves {run : ConnectedAddress γ} {result : ConnectionResult} {candidate : Candidate γ} :
      s.worker = .handling run (.joinedEnded result) →
      WorkerMove s (s.loop { run with
        joined := none
        protocolFailure := keepProtocolFailure run.protocolFailure result
        candidate := candidate })
  | establishes {run : ConnectedAddress γ} {target : γ} {initial : TunnelEventState γ} :
      s.worker = .polling run .candidate → run.candidate = .warming target →
      initial.serverGeneration = target →
      WorkerMove s ((s.addConnection (.new true initial)).handling run
        (.attempted (.connected s.connections.length)))
  | rejects {run : ConnectedAddress γ} {target : γ} {i : Nat} {c : Connection γ}
      {candidate : Candidate γ} :
      s.worker = .handling run (.attempted (.connected i)) →
      run.candidate.target = some target → s.connections[i]? = some c →
      WorkerMove s (loop { s with connections := s.connections.set i c.drop }
        { run with candidate := candidate })
  | joins {run : ConnectedAddress γ} {target : γ} {i : Nat} {c primary : Connection γ} :
      s.worker = .handling run (.attempted (.connected i)) →
      run.candidate.target = some target → s.connections[i]? = some c →
      s.connections[run.primary.connection]? = some primary →
      s.control.allowsCandidates run.shutdownStarted = true →
      run.primary.stillHints primary.tunnel target = true →
      WorkerMove s (loop { s with connections := s.connections.set i c.startRun }
        { run with candidate := .idle, joined := some (.start i c.tunnel) })

/-- What a step can do. -/
inductive Move (s : Stretch γ) : Stretch γ → Prop where
  | tunnel {i : Nat} {c : Connection γ} {tunnel : ClientTunnel γ} :
      s.connections[i]? = some c → c.tunnel.TaskStep tunnel →
      Move s { s with connections := s.connections.set i { c with tunnel := tunnel } }
  | credit {i : Nat} {c : Connection γ} {event : VisitorCredits.Event} {credits : ClientCredits} :
      s.connections[i]? = some c → c.calls event = true →
      s.credits.step (.on i event) = some credits → Move s { s with credits := credits }
  | connect {initial : TunnelEventState γ} : Move s (s.addConnection (.new false initial))
  | control {control : Control} : Move s { s with control := control }
  | worker {t : Stretch γ} : WorkerMove s t → Move s t

/-! ## The worker -/

variable {run : ConnectedAddress γ}

theorem idle_reconcile (allowed : Bool) (hint : Option γ) :
    (Candidate.idle : Candidate γ).reconcile allowed hint true = .idle := by
  unfold Candidate.reconcile
  cases hint.filter fun _ => allowed <;> rfl

theorem of_reconciled {ha : Bool} (h : s.reconciled run ha = some s') :
    ∃ candidate, s' = s.loop { run with candidate := candidate } ∧
      (ha = true → run.candidate = .idle → candidate = .idle) := by
  unfold reconciled at h
  split at h
  · cases h
  · cases h
    refine ⟨_, rfl, ?_⟩
    rintro rfl hi
    rw [hi]
    exact idle_reconcile _ _

variable {event : SelectEvent} {i : Nat} {target : γ}

theorem move_of_reconciled {run' : ConnectedAddress γ} (hw : s.worker = .handling run event)
    (he : event.isEnd = false) (hr : SameRuns run run')
    (h : s.reconciled run' run.joined.isSome = some s') : WorkerMove s s' := by
  obtain ⟨candidate, rfl, hc⟩ := of_reconciled h
  refine .quiet ?_
  rw [hw]
  refine .handle ⟨hr.primary, hr.joined, hr.protocolFailure, ?_⟩ he
  intro hj hi
  exact hc hj (hr.candidate hj hi)

theorem move_of_enter (hw : s.worker = .entering i) (h : s.enter i = some s') :
    WorkerMove s s' := by
  unfold enter at h
  split at h
  · cases h
  · next c hc =>
    obtain ⟨candidate, rfl, -⟩ := of_reconciled h
    exact .enter hw hc rfl rfl rfl

theorem move_of_poll {branch : SelectBranch} (hw : s.worker = .polling run branch)
    (h : s.poll run branch = some s') : WorkerMove s s' := by
  have hn : ∀ branch', WorkerMove s { s with worker := .polling run branch' } := by
    intro branch'
    refine .quiet ?_
    rw [hw]
    exact .poll ⟨rfl, rfl, rfl, fun _ => id⟩
  have ht : ∀ {run' event}, SameRuns run run' → SelectEvent.hasConnection event = false →
      WorkerMove s (s.handling run' event) := by
    intro run' event hr he
    refine .quiet ?_
    rw [hw]
    exact .take hr he
  have hs : SameRuns run run := ⟨rfl, rfl, rfl, fun _ => id⟩
  cases branch with
  | primary => cases h
  | joined =>
    simp only [poll] at h
    split at h
    · cases h
      exact hn _
    · cases h
  | shutdown =>
    simp only [poll] at h
    split at h
    · cases h
      exact ht hs rfl
    · cases h
      exact hn _
  | maintenance =>
    simp only [poll] at h
    split at h
    · split at h
      · cases h
        exact ht ⟨rfl, rfl, rfl, fun _ => id⟩ rfl
      · cases h
        exact ht hs rfl
      · cases h
        exact hn _
    · cases h
      exact hn _
  | hints =>
    simp only [poll] at h
    split at h
    · split at h
      · cases h
      · split at h
        · cases h
          exact ht hs rfl
        · cases h
          exact ht hs rfl
        · cases h
          exact hn _
    · cases h
      exact hn _
  | candidate =>
    cases h
    exact hn _

theorem move_of_attempted {answer : AttemptAnswer γ} (hw : s.worker = .polling run .candidate)
    (hc : run.candidate = .warming target) : WorkerMove s (s.attempted run target answer) := by
  have hta : ∀ {event}, SelectEvent.hasConnection event = false →
      WorkerMove s (s.handling run event) := by
    intro event he
    refine .quiet ?_
    rw [hw]
    exact .take ⟨rfl, rfl, rfl, fun _ => id⟩ he
  cases answer with
  | established initial =>
    simp only [attempted]
    split
    · exact hta rfl
    · next tunnel ht =>
      obtain ⟨rfl, hg⟩ := ClientTunnel.of_establish ht
      exact .establishes hw hc hg
  | _ => exact hta rfl

theorem move_of_loop {run' : ConnectedAddress γ} (hw : s.worker = .handling run event)
    (he : event.isEnd = false) (hr : SameRuns run run') : WorkerMove s (s.loop run') := by
  refine .quiet ?_
  rw [hw]
  exact .handle hr he

omit [DecidableEq γ] in
/-- A candidate that is there may become anything. -/
theorem sameRuns_of_target {candidate : Candidate γ} (ht : run.candidate.target = some target) :
    SameRuns run { run with candidate := candidate } := by
  refine ⟨rfl, rfl, rfl, fun _ hi => ?_⟩
  rw [hi] at ht
  cases ht

theorem move_of_settleConnected (hw : s.worker = .handling run (.attempted (.connected i)))
    (ht : run.candidate.target = some target) (h : s.settleConnected run target i = some s') :
    WorkerMove s s' := by
  unfold settleConnected at h
  split at h
  next c primary hc hp =>
    dsimp only at h
    split at h
    · cases h
      exact .rejects hw ht hc
    · next ha =>
      split at h
      · cases h
        exact .rejects hw ht hc
      · next hh =>
        cases h
        exact .joins hw ht hc hp (by simpa using ha)
          (by simpa using hh)
  next => cases h

theorem move_of_settle {outcome : CandidateOutcome}
    (hw : s.worker = .handling run (.attempted outcome))
    (h : s.settle run outcome = some s') : WorkerMove s s' := by
  unfold settle at h
  split at h
  · cases h
    exact move_of_loop hw rfl ⟨rfl, rfl, rfl, fun _ => id⟩
  · next target ht =>
    cases outcome with
    | connected i => exact move_of_settleConnected hw ht h
    | _ =>
      cases h
      exact move_of_loop hw rfl (sameRuns_of_target ht)

theorem move_of_handle (hw : s.worker = .handling run event) (h : s.handle run event = some s') :
    WorkerMove s s' := by
  cases event with
  | primaryEnded result =>
    simp only [handle] at h
    split at h
    · next hj =>
      cases h
      exact .returns hw hj
    · next next hj =>
      obtain ⟨candidate, rfl, -⟩ := of_reconciled h
      exact .handsOver hw hj
  | joinedEnded result =>
    obtain ⟨candidate, rfl, -⟩ := of_reconciled h
    exact .leaves hw
  | shutdownStarted =>
    cases h
    exact move_of_loop hw rfl ⟨rfl, rfl, rfl, fun _ _ => rfl⟩
  | maintenanceChanged =>
    simp only [handle] at h
    split at h
    · cases h
      exact move_of_loop hw rfl ⟨rfl, rfl, rfl, fun _ _ => rfl⟩
    · exact move_of_reconciled hw rfl ⟨rfl, rfl, rfl, fun _ => id⟩ h
  | hintsChanged =>
    simp only [handle, hintsChanged] at h
    split at h
    · cases h
    · refine move_of_reconciled hw rfl ?_ h
      exact ⟨rfl, rfl, rfl, fun _ hi => by simp only [hi, ite_self]⟩
  | delayElapsed =>
    simp only [handle] at h
    split at h
    · cases h
      exact move_of_loop hw rfl ⟨rfl, rfl, rfl, fun _ => id⟩
    · next target ht =>
      cases h
      exact move_of_loop hw rfl (sameRuns_of_target ht)
  | attempted outcome => exact move_of_settle hw h
  | _ =>
    cases h
    exact move_of_loop hw rfl ⟨rfl, rfl, rfl, fun _ => id⟩

omit [DecidableEq γ] in
theorem of_pollRun {result : Option ConnectionResult} (h : s.pollRun i result = some s') :
    ∃ c c', s.connections[i]? = some c ∧ c.pollRun result.isSome = some c' ∧
      s' = { s with connections := s.connections.set i c', ends := s.ends ++ result.toList } := by
  unfold pollRun at h
  split at h
  · cases h
  · next c hc =>
    obtain ⟨c', hc', rfl⟩ := Option.map_eq_some_iff.mp h
    exact ⟨c, c', hc, hc', rfl⟩

omit [DecidableEq γ] in
theorem of_connection_pollRun {c c' : Connection γ} {ended : Bool}
    (h : c.pollRun ended = some c') :
    c.run.live = true ∧ c' =
      if ended then ⟨c.tunnel.releaseCredit.drop, .ended⟩ else
        ⟨c.tunnel.releaseCredit, .polled⟩ := by
  unfold Connection.pollRun at h
  split at h
  · next hl =>
    cases h
    exact ⟨hl, rfl⟩
  · cases h

/-- A run is polled, and the worker goes where its result says. -/
theorem move_of_pollRun {result : Option ConnectionResult} {worker : Worker γ}
    {worker' : ConnectionResult → Worker γ} (hp : Polls run i s.worker worker)
    (he : ∀ result, Ends run result i s.worker (worker' result))
    (h : s.pollRun i result = some s') :
    WorkerMove s { s' with worker := result.elim worker worker' } := by
  obtain ⟨c, c', hc, hc', rfl⟩ := of_pollRun h
  obtain ⟨hl, rfl⟩ := of_connection_pollRun hc'
  cases result with
  | none => simpa using WorkerMove.polls hp hc hl
  | some result => exact .ends (he result) hc hl

theorem move_of_workerStep {a : Action γ} (h : s.workerStep s.worker a = some s') :
    WorkerMove s s' := by
  unfold workerStep at h
  split at h
  next i hw => exact move_of_enter hw h
  next run result hw =>
    obtain ⟨t, ht, rfl⟩ := Option.map_eq_some_iff.mp h
    have hp : Polls run _ s.worker _ := hw ▸ Polls.primary
    have he : ∀ result, Ends run result _ s.worker _ := fun _ => hw ▸ Ends.primary
    have hm := move_of_pollRun hp he ht
    cases result <;> exact hm
  next run result hw =>
    split at h
    · cases h
    · next joined hj =>
      obtain ⟨t, ht, rfl⟩ := Option.map_eq_some_iff.mp h
      have hp : Polls run _ s.worker _ := hw ▸ Polls.joined hj
      have he : ∀ result, Ends run result _ s.worker _ :=
        fun _ => hw ▸ Ends.joined hj
      have hm := move_of_pollRun hp he ht
      cases result <;> exact hm
  next run branch hw => exact move_of_poll hw h
  next run hw =>
    split at h
    · cases h
      refine .quiet ?_
      rw [hw]
      exact .take ⟨rfl, rfl, rfl, fun _ => id⟩ rfl
    · cases h
    · cases h
  next run answer hw =>
    split at h
    · next target hc =>
      cases h
      exact move_of_attempted hw hc
    · cases h
    · cases h
  next run event hw => exact move_of_handle hw h
  next => cases h

theorem move_of_onTunnel {f : ClientTunnel γ → Option (ClientTunnel γ)}
    (hf : ∀ t t', f t = some t' → t.TaskStep t') (h : s.onTunnel i f = some s') : Move s s' := by
  unfold onTunnel at h
  split at h
  · cases h
  · next c hc =>
    obtain ⟨tunnel, ht, rfl⟩ := Option.map_eq_some_iff.mp h
    exact .tunnel hc (hf _ _ ht)

theorem move_of_step {a : Action γ} (h : s.step a = some s') : Move s s' := by
  cases a with
  | follow i event => exact move_of_onTunnel (fun _ _ => ClientTunnel.taskStep_of_follow) h
  | session i event => exact move_of_onTunnel (fun _ _ => ClientTunnel.TaskStep.of_sessionStep) h
  | close i =>
    have hp : ∀ t t' : ClientTunnel γ, some { t with closed := true } = some t' →
        t.TaskStep t' := by
      rintro t _ ⟨⟩
      exact .phase
    exact move_of_onTunnel hp h
  | credit i event =>
    simp only [step] at h
    split at h
    · cases h
    · next c hc =>
      split at h
      · next hca =>
        obtain ⟨credits, hcr, rfl⟩ := Option.map_eq_some_iff.mp h
        exact .credit hc hca hcr
      · cases h
  | connect initial =>
    cases h
    exact .connect
  | sendIntent | dropSender | beginShutdown | requestShutdown =>
    cases h
    exact .control
  | _ =>
    exact .worker (move_of_workerStep h)

end Stretch

end Runewarp.Client
