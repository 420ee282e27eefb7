import Mathlib.Data.List.Basic

/-!
# One withdrawal request

`withdrawal_attempt` sends a bodyless request and classifies what comes back.  Only a `204`
that declares no content, with no content and no trailers and then its end, is a confirmation:
an attempt is confirmed exactly when its transcript is `Clean`.
-/

namespace Runewarp.Tunnel

/-! ## One request -/

def noContent : Nat := 204

def requestTimeout : Nat := 408

/-- A response, with what the headers of a `204` are looked at for. -/
structure Response where
  status : Nat
  /-- There is a `transfer-encoding`. -/
  transferEncoding : Bool := false
  /-- The values of `content-length`. -/
  contentLengths : List (List UInt8) := []
deriving DecidableEq

def Response.declaresContent (r : Response) : Bool :=
  r.transferEncoding || r.contentLengths.any fun value => value.any (· ≠ 0x30)

inductive WithdrawalAttempt where
  | confirmed
  | status (code : Nat)
  | malformedConfirmation
  | noResponse
  | requestsForbidden
  | connectionLost
deriving DecidableEq

/-- The errors of `send_request`. -/
inductive SendError where
  | remoteClosing
  | connectionError
  | other
deriving DecidableEq

def SendError.attempt : SendError → WithdrawalAttempt
  | .remoteClosing => .requestsForbidden
  | .connectionError => .connectionLost
  | .other => .noResponse

/-- What `recv_data` gives. -/
inductive DataItem where
  | chunk (bytes : List UInt8)
  | finished
  | error
deriving DecidableEq

/-- What `recv_trailers` gives. -/
inductive TrailersItem where
  | absent
  | present
  | error
deriving DecidableEq

/-- Where `withdrawal_attempt` stands. -/
inductive AttemptPhase where
  /-- The request is to be built. -/
  | building
  /-- `send_request`, before its stream is open and after. -/
  | opening
  | sending
  /-- `finish`. -/
  | finishing
  /-- `recv_response`. -/
  | awaiting
  /-- `recv_data`. -/
  | receiving
  /-- `recv_trailers`. -/
  | trailing
deriving DecidableEq

inductive AttemptEvent where
  | request (ok : Bool)
  | opened
  | sendFailed (error : SendError)
  | sent
  | finished (ok : Bool)
  /-- `none` is an error. -/
  | response (response : Option Response)
  | data (item : DataItem)
  | trailers (item : TrailersItem)
deriving DecidableEq

inductive AttemptStep where
  | goes (phase : AttemptPhase)
  | returns (attempt : WithdrawalAttempt)
deriving DecidableEq

/-- One step of `withdrawal_attempt`.  No stream opens on a closed connection. -/
def AttemptPhase.step (closed : Bool) : AttemptPhase → AttemptEvent → Option AttemptStep
  | .building, .request ok => some (if ok then .goes .opening else .returns .noResponse)
  | .opening, .opened => if closed then none else some (.goes .sending)
  | .opening, .sendFailed error | .sending, .sendFailed error => some (.returns error.attempt)
  | .sending, .sent => some (.goes .finishing)
  | .finishing, .finished ok => some (if ok then .goes .awaiting else .returns .noResponse)
  | .awaiting, .response none => some (.returns .noResponse)
  | .awaiting, .response (some r) =>
    some (if r.status ≠ noContent then .returns (.status r.status)
      else if r.declaresContent then .returns .malformedConfirmation
      else .goes .receiving)
  | .receiving, .data (.chunk bytes) =>
    some (if bytes ≠ [] then .returns .malformedConfirmation else .goes .receiving)
  | .receiving, .data .finished => some (.goes .trailing)
  | .receiving, .data .error => some (.returns .noResponse)
  | .trailing, .trailers .absent => some (.returns .confirmed)
  | .trailing, .trailers .present => some (.returns .malformedConfirmation)
  | .trailing, .trailers .error => some (.returns .noResponse)
  | _, _ => none

/-! ## What an attempt has seen -/

/-- What every attempt sees that has a response. -/
def responded (r : Response) : List AttemptEvent :=
  [.request true, .opened, .sent, .finished true, .response (some r)]

/-- Some chunks without bytes. -/
def emptyChunks (n : Nat) : List AttemptEvent := List.replicate n (.data (.chunk []))

/-- A `204` that declares no content, with no content and no trailers, and its end. -/
def Clean (events : List AttemptEvent) : Prop :=
  ∃ r n, events = responded r ++ emptyChunks n ++ [.data .finished, .trailers .absent] ∧
    r.status = noContent ∧ r.declaresContent = false

namespace AttemptPhase

/-- What an attempt has seen when it comes to a phase. -/
def Sees : AttemptPhase → List AttemptEvent → Prop
  | .building, events => events = []
  | .opening, events => events = [.request true]
  | .sending, events => events = [.request true, .opened]
  | .finishing, events => events = [.request true, .opened, .sent]
  | .awaiting, events => events = [.request true, .opened, .sent, .finished true]
  | .receiving, events =>
    ∃ r n, events = responded r ++ emptyChunks n ∧
      r.status = noContent ∧ r.declaresContent = false
  | .trailing, events =>
    ∃ r n, events = responded r ++ emptyChunks n ++ [.data .finished] ∧
      r.status = noContent ∧ r.declaresContent = false

variable {closed : Bool} {p p' : AttemptPhase} {event : AttemptEvent}
  {events : List AttemptEvent} {a : WithdrawalAttempt}

theorem Sees.goes (h : p.Sees events) (hs : p.step closed event = some (.goes p')) :
    p'.Sees (events ++ [event]) := by
  unfold step at hs
  split at hs
  next ok =>
    cases ok <;> cases hs
    rw [show events = [] from h]
    rfl
  next =>
    split at hs <;> cases hs
    rw [show events = [.request true] from h]
    rfl
  iterate 2
    next => cases hs
  next =>
    cases hs
    rw [show events = [.request true, .opened] from h]
    rfl
  next ok =>
    cases ok <;> cases hs
    rw [show events = [.request true, .opened, .sent] from h]
    rfl
  next => cases hs
  next r =>
    rw [show events = [.request true, .opened, .sent, .finished true] from h]
    split at hs
    next => cases hs
    next hst =>
      split at hs
      next => cases hs
      next hc =>
        cases hs
        exact ⟨r, 0, rfl, not_not.mp hst, Bool.not_eq_true _ ▸ hc⟩
  next bytes =>
    split at hs
    next => cases hs
    next he =>
      cases hs
      obtain ⟨r, n, rfl, hr⟩ := h
      refine ⟨r, n + 1, ?_, hr⟩
      rw [not_not.mp he, emptyChunks, emptyChunks, List.replicate_succ', List.append_assoc]
  next =>
    cases hs
    obtain ⟨r, n, rfl, hr⟩ := h
    exact ⟨r, n, rfl, hr⟩
  iterate 4
    next => cases hs
  next => cases hs

/-- A clean transcript ends with the end of the trailers. -/
theorem getLast?_of_clean (h : Clean events) : events.getLast? = some (.trailers .absent) := by
  obtain ⟨r, n, rfl, -⟩ := h
  simp

/-- An attempt that goes on has seen no confirmation. -/
theorem Sees.not_clean (h : p.Sees events) : ¬ Clean events := by
  intro hc
  have hl := getLast?_of_clean hc
  cases p with
  | receiving =>
    obtain ⟨r, n, rfl, -⟩ := h
    cases n with
    | zero => cases hl
    | succ n =>
      rw [emptyChunks, List.replicate_succ', ← List.append_assoc, List.getLast?_concat] at hl
      cases hl
  | trailing =>
    obtain ⟨r, n, rfl, -⟩ := h
    rw [List.getLast?_concat] at hl
    cases hl
  | _ =>
    rw [show events = _ from h] at hl
    cases hl

theorem eq_of_confirmed (h : p.step closed event = some (.returns .confirmed)) :
    p = .trailing ∧ event = .trailers .absent := by
  unfold step at h
  split at h
  next ok => cases ok <;> cases h
  next => split at h <;> cases h
  iterate 2
    next error => cases error <;> cases h
  next => cases h
  next ok => cases ok <;> cases h
  next => cases h
  next =>
    split at h
    next => cases h
    next => split at h <;> cases h
  next => split at h <;> cases h
  iterate 2
    next => cases h
  next => exact ⟨rfl, rfl⟩
  all_goals cases h

/-- An attempt is confirmed exactly when its transcript is clean. -/
theorem Sees.returns (h : p.Sees events) (hs : p.step closed event = some (.returns a)) :
    a = .confirmed ↔ Clean (events ++ [event]) := by
  constructor
  · rintro rfl
    obtain ⟨rfl, rfl⟩ := eq_of_confirmed hs
    obtain ⟨r, n, rfl, hr⟩ := h
    exact ⟨r, n, by rw [List.append_assoc]; rfl, hr⟩
  · intro hc
    have hl := getLast?_of_clean hc
    rw [List.getLast?_concat] at hl
    cases hl
    cases p <;> cases hs
    rfl

/-- An attempt opens at most one stream. -/
theorem Sees.count_opened (h : p.Sees events) : events.count .opened ≤ 1 := by
  have hc : ∀ n, (emptyChunks n).count .opened = 0 := fun n =>
    List.count_eq_zero.mpr fun hm => by cases List.eq_of_mem_replicate hm
  cases p with
  | receiving =>
    obtain ⟨r, n, rfl, -⟩ := h
    rw [List.count_append, hc]
    exact Nat.le_refl 1
  | trailing =>
    obtain ⟨r, n, rfl, -⟩ := h
    rw [List.count_append, List.count_append, hc]
    exact Nat.le_refl 1
  | _ =>
    rw [show events = _ from h]
    decide

theorem Sees.count_returned (h : p.Sees events)
    (hs : p.step closed event = some (.returns a)) :
    (events ++ [event]).count .opened ≤ 1 := by
  have he : event ≠ .opened := by
    rintro rfl
    cases p with
    | opening =>
      simp only [step] at hs
      split at hs <;> cases hs
    | _ => cases hs
  rw [List.count_append, List.count_singleton, if_neg (by simpa using he)]
  exact h.count_opened

end AttemptPhase

end Runewarp.Tunnel
