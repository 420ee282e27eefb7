import Mathlib.Data.List.Basic

/-!
# Machines that read a stream in pieces

A machine takes one symbol at a time; it gives items and a new state, or it fails.  It is
called with pieces of a stream.  A call goes through its piece and returns the items of
the piece, or the error, and then the items of the piece are gone.

`trace` is the run over a whole stream, with the place of the error.  However a stream is
cut, the calls make the steps of that run (`trace_append`), so that they return its items
when it has no error (`feed_of_ok`), and otherwise fail in the piece that holds the
offending symbol (`feed_of_error`).
-/

namespace Transducer

variable {σ β ε ω : Type}

/-- One part of a run, and the rest of it from the state it leads to. -/
def andThen : Except ε (σ × List ω) → (σ → Except ε (σ × List ω)) → Except ε (σ × List ω)
  | .error e, _ => .error e
  | .ok (s, items), rest => (rest s).map fun (s, more) => (s, items ++ more)

@[simp] theorem andThen_error {e : ε} {rest : σ → Except ε (σ × List ω)} :
    andThen (.error e) rest = .error e := rfl

@[simp] theorem andThen_ok {s : σ} {items : List ω} {rest : σ → Except ε (σ × List ω)} :
    andThen (.ok (s, items)) rest = (rest s).map fun (s, more) => (s, items ++ more) := rfl

variable {x : Except ε (σ × List ω)} {f : σ → Except ε (σ × List ω)} {b : β}

theorem andThen_assoc {g : σ → Except ε (σ × List ω)} :
    andThen (andThen x f) g = andThen x fun s => andThen (f s) g := by
  cases x with
  | error e => rfl
  | ok x =>
    simp only [andThen]
    cases f x.1 with
    | error e => rfl
    | ok y =>
      simp only [Except.map]
      cases g y.1 with
      | error e => rfl
      | ok z => simp only [List.append_assoc]

/-- What was returned first comes first. -/
theorem andThen_eq_ok {s : σ} {items : List ω} (h : andThen x f = .ok (s, items)) :
    ∃ mid first more, x = .ok (mid, first) ∧ f mid = .ok (s, more) ∧ items = first ++ more := by
  cases x with
  | error e => cases h
  | ok x =>
    obtain ⟨mid, first⟩ := x
    cases hf : f mid with
    | error e => simp [hf, Except.map] at h
    | ok y =>
      simp only [andThen_ok, hf, Except.map, Except.ok.injEq, Prod.mk.injEq] at h
      obtain ⟨rfl, rfl⟩ := h
      exact ⟨mid, first, y.2, rfl, hf, rfl⟩

/-- States that stand for others go on standing for them. -/
theorem andThen_map {τ : Type} {abs abs' : σ → τ} {g : τ → Except ε (τ × List ω)}
    (h : ∀ s, g (abs s) = (f s).map (Prod.map abs' id)) :
    andThen (x.map (Prod.map abs id)) g = (andThen x f).map (Prod.map abs' id) := by
  cases x with
  | error e => rfl
  | ok x =>
    obtain ⟨mid, first⟩ := x
    simp only [Except.map, Prod.map_apply, id, andThen_ok, h]
    cases f mid <;> rfl

theorem andThen_eq_error {e : ε} (h : andThen x f = .error e) :
    x = .error e ∨ ∃ mid first, x = .ok (mid, first) ∧ f mid = .error e := by
  cases x with
  | error e' =>
    cases h
    exact .inl rfl
  | ok x =>
    obtain ⟨mid, first⟩ := x
    cases hf : f mid with
    | ok y => simp [hf, Except.map] at h
    | error e' =>
      simp only [andThen_ok, hf, Except.map, Except.error.injEq] at h
      subst h
      exact .inr ⟨mid, first, rfl, hf⟩

variable (step : σ → β → Except ε (σ × List ω))

/-- A run over a stream whose first symbol has number `n`.  An error comes with the number
of the symbol at which it is raised. -/
def trace : Nat → σ → List β → Except (Nat × ε) (σ × List ω)
  | _, s, [] => .ok (s, [])
  | n, s, b :: bs => andThen ((step s b).mapError (n, ·)) fun s => trace (n + 1) s bs

/-- A call with one piece. -/
def push : σ → List β → Except ε (σ × List ω)
  | s, [] => .ok (s, [])
  | s, b :: bs => andThen (step s b) fun s => push s bs

/-- Calls with one piece after another, up to the first that fails: what they return, and
the state or the error at the end. -/
def feed : σ → List (List β) → List ω × Except ε σ
  | s, [] => ([], .ok s)
  | s, chunk :: chunks =>
    match push step s chunk with
    | .error e => ([], .error e)
    | .ok (s, items) => (items ++ (feed s chunks).1, (feed s chunks).2)

variable {step} {s s' : σ} {n m : Nat} {bs bs' : List β} {items : List ω} {e : ε}

theorem trace_cons_ok (h : step s b = .ok (s', items)) : trace step n s (b :: bs) =
      (trace step (n + 1) s' bs).map fun (s, more) => (s, items ++ more) := by
  rw [trace, h]
  rfl

theorem trace_cons_silent (h : step s b = .ok (s', [])) :
    trace step n s (b :: bs) = trace step (n + 1) s' bs := by
  rw [trace_cons_ok h]
  cases trace step (n + 1) s' bs <;> rfl

theorem trace_cons_error (h : step s b = .error e) : trace step n s (b :: bs) = .error (n, e) := by
  rw [trace, h]
  rfl

theorem trace_cons_more (h : step s b = (step s' b).map fun (t, more) => (t, items ++ more)) :
    trace step n s (b :: bs) =
      (trace step n s' (b :: bs)).map fun (t, more) => (t, items ++ more) := by
  simp only [trace, h]
  cases step s' b with
  | error e => rfl
  | ok next =>
    simp only [Except.map, Except.mapError, andThen]
    cases trace step (n + 1) next.1 bs with
    | error e => rfl
    | ok last => simp only [List.append_assoc]

theorem trace_append : trace step n s (bs ++ bs') =
    andThen (trace step n s bs) fun s => trace step (n + bs.length) s bs' := by
  induction bs generalizing n s with
  | nil =>
    simp only [List.nil_append, trace, List.length_nil, Nat.add_zero, andThen_ok]
    cases trace step n s bs' <;> rfl
  | cons b bs ih =>
    simp only [List.cons_append, trace, andThen_assoc, ih, List.length_cons]
    congr 1
    rw [Nat.add_assoc, Nat.add_comm 1]

theorem push_eq (n : Nat) : push step s bs = (trace step n s bs).mapError Prod.snd := by
  induction bs generalizing n s with
  | nil => rfl
  | cons b bs ih =>
    simp only [push, trace]
    cases step s b with
    | error e => rfl
    | ok next =>
      simp only [andThen, Except.mapError, ih (n + 1)]
      cases trace step (n + 1) next.1 bs <;> rfl

theorem push_of_ok (h : trace step n s bs = .ok (s', items)) :
    push step s bs = .ok (s', items) := by
  rw [push_eq n, h]
  rfl

theorem push_of_error (h : trace step n s bs = .error (m, e)) : push step s bs = .error e := by
  rw [push_eq n, h]
  rfl

theorem trace_of_push_ok (n : Nat) (h : push step s bs = .ok (s', items)) :
    trace step n s bs = .ok (s', items) := by
  rw [push_eq n] at h
  cases ht : trace step n s bs with
  | error e =>
    rw [ht] at h
    cases h
  | ok x =>
    rw [ht] at h
    cases h
    rfl

theorem trace_of_push_error (n : Nat) (h : push step s bs = .error e) :
    ∃ m, trace step n s bs = .error (m, e) := by
  cases ht : trace step n s bs with
  | ok last => cases (push_of_ok ht).symm.trans h
  | error failure =>
    cases (push_of_error ht).symm.trans h
    exact ⟨failure.1, rfl⟩

/-- An error is raised at a symbol of the stream, and not before it. -/
theorem trace_error (h : trace step n s bs = .error (m, e)) :
    n ≤ m ∧ m < n + bs.length ∧
      (∃ s' items, trace step n s (bs.take (m - n)) = .ok (s', items)) ∧
      trace step n s (bs.take (m - n + 1)) = .error (m, e) := by
  induction bs generalizing n s with
  | nil => cases h
  | cons b bs ih =>
    rcases andThen_eq_error h with hst | ⟨mid, first, hst, hr⟩
    · cases hs : step s b with
      | ok next =>
        rw [hs] at hst
        cases hst
      | error e' =>
        rw [hs] at hst
        cases hst
        simp [trace, hs, Except.mapError]
    · obtain ⟨hle, hlt, ⟨s', items, ht⟩, hf⟩ := ih hr
      have hsu : m - n = m - (n + 1) + 1 := by omega
      refine ⟨by omega, by simp only [List.length_cons]; omega, ?_, ?_⟩
      · rw [hsu, List.take_succ_cons, trace, hst, andThen_ok, ht]
        exact ⟨_, _, rfl⟩
      · rw [hsu, List.take_succ_cons, trace, hst, andThen_ok, hf]
        rfl

theorem trace_take_ok {k : Nat} (h : trace step n s bs = .ok (s', items)) :
    ∃ mid first, trace step n s (bs.take k) = .ok (mid, first) := by
  rw [← List.take_append_drop k bs, trace_append] at h
  obtain ⟨mid, first, -, ht, -⟩ := andThen_eq_ok h
  exact ⟨mid, first, ht⟩

/-- The symbol at which a run fails. -/
theorem trace_of_fails_at {k : Nat} (hb : push step s (bs.take k) = .ok (s', items))
    (hf : push step s (bs.take (k + 1)) = .error e) : trace step 0 s bs = .error (k, e) := by
  obtain ⟨m, ht⟩ := trace_of_push_error 0 hf
  obtain ⟨-, hlt, -, hat⟩ := trace_error ht
  have hm : m = k := by
    by_contra hne
    have hs : m + 1 ≤ k := by
      simp only [List.length_take] at hlt
      omega
    -- The run fails within its first `k` symbols, where it has no error.
    obtain ⟨mid, first, hta⟩ := trace_take_ok (k := m + 1) (trace_of_push_ok 0 hb)
    rw [Nat.sub_zero, List.take_take, Nat.min_eq_left (by omega)] at hat
    rw [List.take_take, Nat.min_eq_left hs, hat] at hta
    cases hta
  subst hm
  rw [← List.take_append_drop (m + 1) bs, trace_append, ht]
  rfl

/-- What holds of a state, and what the items then meet, is kept by a run. -/
theorem trace_invariant {I : σ → Prop} {P : ω → Prop}
    (keep : ∀ s b s' items, I s → step s b = .ok (s', items) → I s' ∧ ∀ item ∈ items, P item)
    (hs : I s) (h : trace step n s bs = .ok (s', items)) : I s' ∧ ∀ item ∈ items, P item := by
  induction bs generalizing n s items with
  | nil =>
    cases h
    exact ⟨hs, nofun⟩
  | cons b bs ih =>
    obtain ⟨mid, first, more, hst, hr, rfl⟩ := andThen_eq_ok h
    cases hb : step s b with
    | error e =>
      rw [hb] at hst
      cases hst
    | ok next =>
      rw [hb] at hst
      cases hst
      obtain ⟨hmi, hf⟩ := keep s b _ _ hs hb
      obtain ⟨hs', hm⟩ := ih hmi hr
      exact ⟨hs', fun item hi => (List.mem_append.mp hi).elim (hf item) (hm item)⟩

/-! ## Pieces -/

variable {chunks : List (List β)}

/-- However a stream without an error is cut, the calls return its items. -/
theorem feed_of_ok (h : trace step n s chunks.flatten = .ok (s', items)) :
    feed step s chunks = (items, .ok s') := by
  induction chunks generalizing n s items with
  | nil =>
    cases h
    rfl
  | cons chunk chunks ih =>
    rw [List.flatten_cons, trace_append] at h
    obtain ⟨mid, first, more, hc, hr, rfl⟩ := andThen_eq_ok h
    simp only [feed, push_of_ok hc, ih hr]

theorem trace_of_feed_ok (n : Nat) (h : feed step s chunks = (items, .ok s')) :
    trace step n s chunks.flatten = .ok (s', items) := by
  induction chunks generalizing n s items with
  | nil =>
    cases h
    rfl
  | cons chunk chunks ih =>
    cases hp : push step s chunk with
    | error e => simp [feed, hp] at h
    | ok next =>
      obtain ⟨mid, first⟩ := next
      simp only [feed, hp, Prod.mk.injEq] at h
      have hr : feed step mid chunks = ((feed step mid chunks).1, .ok s') := by rw [← h.2]
      rw [List.flatten_cons, trace_append, trace_of_push_ok n hp, andThen_ok,
        ih (n + chunk.length) hr, ← h.1]
      rfl

/-- However a stream is cut, the call fails whose piece holds the offending symbol, and
what is returned is what the pieces before it complete. -/
theorem feed_of_error (h : trace step n s chunks.flatten = .error (m, e)) :
    ∃ before chunk after mid items, chunks = before ++ chunk :: after ∧
      trace step n s before.flatten = .ok (mid, items) ∧
      trace step (n + before.flatten.length) mid chunk = .error (m, e) ∧
      feed step s chunks = (items, .error e) := by
  induction chunks generalizing n s with
  | nil => cases h
  | cons chunk chunks ih =>
    rw [List.flatten_cons, trace_append] at h
    rcases andThen_eq_error h with hc | ⟨mid, first, hc, hr⟩
    · refine ⟨[], chunk, chunks, s, [], rfl, rfl, hc, ?_⟩
      simp only [feed, push_of_error hc]
    · obtain ⟨before, piece, after, mid', items, rfl, hb, hp, hf⟩ := ih hr
      refine ⟨chunk :: before, piece, after, mid', first ++ items, rfl, ?_, ?_, ?_⟩
      · rw [List.flatten_cons, trace_append, hc, andThen_ok, hb]
        rfl
      · rw [List.flatten_cons, List.length_append, ← Nat.add_assoc]
        exact hp
      · simp only [feed, push_of_ok hc, hf]

theorem feed_of_push_ok (h : push step s chunks.flatten = .ok (s', items)) :
    feed step s chunks = (items, .ok s') :=
  feed_of_ok (trace_of_push_ok 0 h)

theorem feed_of_push_error (h : push step s chunks.flatten = .error e) :
    (feed step s chunks).2 = .error e := by
  obtain ⟨m, ht⟩ := trace_of_push_error 0 h
  obtain ⟨before, chunk, after, mid, items, -, -, -, hf⟩ := feed_of_error ht
  rw [hf]

theorem feed_concat_ok {more : List ω} {t : σ} (h : feed step s chunks = (items, .ok s'))
    (hp : push step s' bs = .ok (t, more)) :
    feed step s (chunks ++ [bs]) = (items ++ more, .ok t) := by
  refine feed_of_ok (n := 0) ?_
  rw [List.flatten_append, List.flatten_singleton, trace_append, trace_of_feed_ok 0 h, andThen_ok,
    trace_of_push_ok _ hp]
  rfl

theorem feed_concat_error (h : feed step s chunks = (items, .ok s'))
    (hp : push step s' bs = .error e) : (feed step s (chunks ++ [bs])).2 = .error e := by
  obtain ⟨m, ht⟩ := trace_of_push_error (0 + chunks.flatten.length) hp
  refine feed_of_push_error (push_of_error (n := 0) (m := m) ?_)
  rw [List.flatten_append, List.flatten_singleton, trace_append, trace_of_feed_ok 0 h, andThen_ok,
    ht]
  rfl

end Transducer
