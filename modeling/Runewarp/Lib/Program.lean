import Mathlib.Data.List.Basic

/-!
# Programs that call their environment

A program is a tree: it is done, it has failed, or it makes a call and goes on with the
reply.  What a call does is not part of the program, so the same program can be run
where every call does what it should, where calls fail, and up to any call where it is
interrupted.

`wp` is the weakest precondition of a program under a relation that says what calls can
do.  It has a condition for the result and one for every state on the way, the states
in which the program may be interrupted.
-/

/-- A program with calls `ι`, where call `i` is answered by a `ρ i`. -/
inductive Program (ι : Type) (ρ : ι → Type) (ε α : Type) : Type where
  | ok (a : α)
  | fail (e : ε)
  | call (i : ι) (next : ρ i → Program ι ρ ε α)

namespace Program

variable {ι : Type} {ρ : ι → Type} {ε α β σ : Type}

protected def bind : Program ι ρ ε α → (α → Program ι ρ ε β) → Program ι ρ ε β
  | .ok a, f => f a
  | .fail e, _ => .fail e
  | .call i next, f => .call i fun r => (next r).bind f

instance : Monad (Program ι ρ ε) where
  pure := .ok
  bind := Program.bind

/-- The result of a program that may fail, as a value. -/
def attempt : Program ι ρ ε α → Program ι ρ ε (Except ε α)
  | .ok a => .ok (.ok a)
  | .fail e => .ok (.error e)
  | .call i next => .call i fun r => (next r).attempt

/-- The reply of a call that may fail. -/
def ofExcept : Except ε α → Program ι ρ ε α
  | .ok a => .ok a
  | .error e => .fail e

/-- A program that is run under a condition. -/
def onlyIf (b : Bool) (p : Program ι ρ ε Unit) : Program ι ρ ε Unit :=
  if b then p else .ok ()

/-- A loop over a list. -/
def forEach (body : β → Program ι ρ ε Unit) : List β → Program ι ρ ε Unit
  | [] => .ok ()
  | b :: bs => (body b).bind fun _ => forEach body bs

/-- The members of a list for which a program does not fail. -/
def filterOk (test : β → Program ι ρ ε α) : List β → Program ι ρ ε (List β)
  | [] => .ok []
  | b :: bs =>
    (test b).attempt.bind fun result =>
      (filterOk test bs).bind fun rest =>
        .ok (match result with
          | .ok _ => b :: rest
          | .error _ => rest)

/-- Every call that a program may make meets a condition, whatever it is answered. -/
def All (ok : ι → Prop) : Program ι ρ ε α → Prop
  | .ok _ | .fail _ => True
  | .call i next => ok i ∧ ∀ r, (next r).All ok

/-- What a program returns meets a condition, whatever its calls are answered. -/
def Returns (good : α → Prop) : Program ι ρ ε α → Prop
  | .ok a => good a
  | .fail _ => True
  | .call _ next => ∀ r, (next r).Returns good

/-- The run of a program whose calls are answered by a function. -/
def run (perform : (i : ι) → σ → ρ i × σ) : Program ι ρ ε α → σ → Except ε α × σ
  | .ok a, s => (.ok a, s)
  | .fail e, s => (.error e, s)
  | .call i next, s => (next (perform i s).1).run perform (perform i s).2

/-! ## Weakest preconditions -/

/-- Every run of the program ends with `Q` and is in `C` at every moment. -/
def wp (sem : (i : ι) → σ → ρ i → σ → Prop) (Q : Except ε α → σ → Prop) (C : σ → Prop) :
    Program ι ρ ε α → σ → Prop
  | .ok a, s => Q (.ok a) s ∧ C s
  | .fail e, s => Q (.error e) s ∧ C s
  | .call i next, s => C s ∧ ∀ r t, sem i s r t → wp sem Q C (next r) t

variable {sem : (i : ι) → σ → ρ i → σ → Prop} {Q Q' : Except ε α → σ → Prop} {C C' : σ → Prop}
  {p : Program ι ρ ε α} {s : σ}

theorem wp.now (h : wp sem Q C p s) : C s := by
  cases p with
  | call i next => exact h.1
  | _ => exact h.2

theorem wp.mono (h : wp sem Q C p s) (hQ : ∀ x t, C t → Q x t → Q' x t) (hC : ∀ t, C t → C' t) :
    wp sem Q' C' p s := by
  induction p generalizing s with
  | call i next ih => exact ⟨hC _ h.1, fun r t hr => ih r (h.2 r t hr)⟩
  | _ => exact ⟨hQ _ _ h.2 h.1, hC _ h.2⟩

/-- What holds of all runs holds where calls can do less. -/
theorem wp.of_imp {sem' : (i : ι) → σ → ρ i → σ → Prop} (h : wp sem Q C p s)
    (hi : ∀ i s r t, sem' i s r t → sem i s r t) : wp sem' Q C p s := by
  induction p generalizing s with
  | call i next ih => exact ⟨h.1, fun r t hr => ih r (h.2 r t (hi i s r t hr))⟩
  | _ => exact h

/-- The condition after the first of two programs. -/
def andThen (sem : (i : ι) → σ → ρ i → σ → Prop) (Q : Except ε β → σ → Prop) (C : σ → Prop)
    (f : α → Program ι ρ ε β) : Except ε α → σ → Prop
  | .ok a, s => wp sem Q C (f a) s
  | .error e, s => Q (.error e) s

variable {f : α → Program ι ρ ε β}

theorem wp_bind {Q : Except ε β → σ → Prop} (h : wp sem (andThen sem Q C f) C p s) :
    wp sem Q C (p.bind f) s := by
  induction p generalizing s with
  | ok a => exact h.1
  | fail e => exact h
  | call i next ih => exact ⟨h.1, fun r t hr => ih r (h.2 r t hr)⟩

theorem wp_bind_any {Q : Except ε β → σ → Prop} (hC : ∀ t, C t) (hf : ∀ e t, Q (.error e) t)
    (hok : ∀ a t, wp sem Q C (f a) t) : wp sem Q C (p.bind f) s := by
  induction p generalizing s with
  | ok a => exact hok a s
  | fail e => exact ⟨hf e s, hC s⟩
  | call i next ih => exact ⟨hC s, fun r _ _ => ih r⟩

theorem wp_attempt {Q : Except ε (Except ε α) → σ → Prop}
    (h : wp sem (fun x => Q (.ok x)) C p s) : wp sem Q C p.attempt s := by
  induction p generalizing s with
  | call i next ih => exact ⟨h.1, fun r t hr => ih r (h.2 r t hr)⟩
  | _ => exact h

/-- The rule for loops: `I` says what holds when a list is still to be visited. -/
theorem wp_forEach {body : β → Program ι ρ ε Unit} {I : List β → σ → Prop}
    {Q : Except ε Unit → σ → Prop}
    (step : ∀ b bs s, I (b :: bs) s →
      wp sem (fun x t => match x with
        | .ok _ => I bs t
        | .error e => Q (.error e) t) C (body b) s)
    (last : ∀ s, I [] s → Q (.ok ()) s ∧ C s) :
    ∀ {bs : List β} {s : σ}, I bs s → wp sem Q C (forEach body bs) s
  | [], s, h => last s h
  | b :: bs, s, h => by
      refine wp_bind ((step b bs s h).mono ?_ fun _ => id)
      intro x t _ hx
      cases x with
      | ok _ => exact wp_forEach step last hx
      | error e => exact hx

/-- The rule for `filterOk`: `I` is kept by every test, and says which of them fail. -/
theorem wp_filterOk {test : β → Program ι ρ ε α} {k : β → Bool} {I : σ → Prop}
    (step : ∀ b s, I s → wp sem (fun x t => I t ∧ x.isOk = k b) C (test b) s)
    (hC : ∀ s, I s → C s) :
    ∀ {bs : List β} {s : σ} {Q : Except ε (List β) → σ → Prop},
      (∀ t, I t → Q (.ok (bs.filter k)) t) → I s → wp sem Q C (filterOk test bs) s
  | [], s, _, last, h => ⟨last s h, hC s h⟩
  | b :: bs, s, Q, last, h => by
      refine wp_bind (wp_attempt ((step b s h).mono ?_ fun _ => id))
      intro x t _ hx
      refine wp_bind (wp_filterOk step hC ?_ hx.1)
      intro u hu
      refine ⟨?_, hC u hu⟩
      have hl := last u hu
      rw [List.filter_cons, ← hx.2] at hl
      cases x with
      | ok a => exact hl
      | error e => exact hl

/-! ## Programs under way -/

/-- A program has made some of its calls, and `q` is what is left of it. -/
inductive Advances (sem : (i : ι) → σ → ρ i → σ → Prop) :
    Program ι ρ ε α → σ → Program ι ρ ε α → σ → Prop where
  | refl {p : Program ι ρ ε α} {s : σ} : Advances sem p s p s
  | call {i : ι} {next : ρ i → Program ι ρ ε α} {r : ρ i} {s t u : σ} {q : Program ι ρ ε α} :
      sem i s r t → Advances sem (next r) t q u → Advances sem (.call i next) s q u

/-- What holds of all runs holds of what is left. -/
theorem wp.advances {q : Program ι ρ ε α} {t : σ} (h : wp sem Q C p s)
    (hp : Advances sem p s q t) : wp sem Q C q t := by
  induction hp with
  | refl => exact h
  | call hc _ ih => exact ih (h.2 _ _ hc)

/-- The first calls of a run, and what is left of the program. -/
def after (perform : (i : ι) → σ → ρ i × σ) :
    Program ι ρ ε α → Nat → σ → Program ι ρ ε α × σ
  | .call i next, n + 1, s => (next (perform i s).1).after perform n (perform i s).2
  | p, _, s => (p, s)

theorem advances_after {perform : (i : ι) → σ → ρ i × σ}
    (h : ∀ i s, sem i s (perform i s).1 (perform i s).2) (n : Nat) :
    Advances sem p s (p.after perform n s).1 (p.after perform n s).2 := by
  induction n generalizing p s with
  | zero => cases p <;> exact .refl
  | succ n ih =>
    cases p with
    | call i next => exact .call (h i s) ih
    | _ => exact .refl

theorem snd_after_bind_ok {perform : (i : ι) → σ → ρ i × σ} {g : α → β} (n : Nat) :
    ((p.bind fun a => .ok (g a)).after perform n s).2 = (p.after perform n s).2 := by
  induction p generalizing s n with
  | ok a | fail e => cases n <;> rfl
  | call i next ih =>
    cases n with
    | zero => rfl
    | succ n => exact ih _ n

/-! ## Conditions on the calls and on the result -/

variable {ok : ι → Prop} {good : α → Prop}

theorem All.bind (h : p.All ok) (hf : ∀ a, (f a).All ok) : (p.bind f).All ok := by
  induction p with
  | ok a => exact hf a
  | fail e => trivial
  | call i next ih => exact ⟨h.1, fun r => ih r (h.2 r)⟩

theorem All.mono {ok' : ι → Prop} (h : p.All ok) (hi : ∀ i, ok i → ok' i) : p.All ok' := by
  induction p with
  | call i next ih => exact ⟨hi i h.1, fun r => ih r (h.2 r)⟩
  | _ => trivial

theorem All.after {perform : (i : ι) → σ → ρ i × σ} (h : p.All ok)
    (keep : ∀ i s, ok i → (perform i s).2 = s) (n : Nat) : (p.after perform n s).2 = s := by
  induction p generalizing s n with
  | ok a | fail e => cases n <;> rfl
  | call i next ih =>
    cases n with
    | zero => rfl
    | succ n => exact (ih _ (h.2 _) n).trans (keep i s h.1)

theorem All.attempt (h : p.All ok) : p.attempt.All ok := by
  induction p with
  | call i next ih => exact ⟨h.1, fun r => ih r (h.2 r)⟩
  | _ => trivial

theorem all_ofExcept (x : Except ε α) : (ofExcept x : Program ι ρ ε α).All ok := by
  cases x <;> trivial

theorem all_onlyIf (b : Bool) {p : Program ι ρ ε Unit} (h : p.All ok) : (onlyIf b p).All ok := by
  cases b
  · trivial
  · exact h

theorem all_forEach {body : β → Program ι ρ ε Unit} (h : ∀ b, (body b).All ok) (bs : List β) :
    (forEach body bs).All ok := by
  induction bs with
  | nil => trivial
  | cons b bs ih => exact (h b).bind fun _ => ih

theorem returns_true : p.Returns fun _ => True := by
  induction p with
  | call i next ih => exact ih
  | _ => trivial

theorem Returns.mono {good' : α → Prop} (h : p.Returns good) (hi : ∀ a, good a → good' a) :
    p.Returns good' := by
  induction p with
  | ok a => exact hi a h
  | fail e => trivial
  | call i next ih => exact fun r => ih r (h r)

theorem Returns.bind {good' : β → Prop} (h : p.Returns good)
    (hf : ∀ a, good a → (f a).Returns good') : (p.bind f).Returns good' := by
  induction p with
  | ok a => exact hf a h
  | fail e => trivial
  | call i next ih => exact fun r => ih r (h r)

/-- What every such call keeps holds at every moment. -/
theorem All.wp {I : σ → Prop} (h : p.All ok) (hre : p.Returns good)
    (step : ∀ i s r t, ok i → I s → sem i s r t → I t) (init : I s) :
    p.wp sem (fun x t => I t ∧ ∀ a, x = .ok a → good a) I s := by
  induction p generalizing s with
  | ok a =>
    refine ⟨⟨init, ?_⟩, init⟩
    rintro _ ⟨⟩
    exact hre
  | fail e => exact ⟨⟨init, nofun⟩, init⟩
  | call i next ih =>
    exact ⟨init, fun r t hr => ih r (h.2 r) (hre r) (step i s r t h.1 init hr)⟩

/-! ## Calls that are answered by a function -/

/-- What a function makes of a call. -/
def graph (perform : (i : ι) → σ → ρ i × σ) (i : ι) (s : σ) (r : ρ i) (t : σ) : Prop :=
  perform i s = (r, t)

variable {perform : (i : ι) → σ → ρ i × σ}

theorem wp_call {i : ι} {next : ρ i → Program ι ρ ε α} (hC : C s)
    (h : wp (graph perform) Q C (next (perform i s).1) (perform i s).2) :
    wp (graph perform) Q C (.call i next) s := by
  refine ⟨hC, ?_⟩
  rintro r t hrt
  obtain rfl : (perform i s).1 = r := congrArg Prod.fst hrt
  obtain rfl : (perform i s).2 = t := congrArg Prod.snd hrt
  exact h

theorem wp.run (h : wp (graph perform) Q C p s) :
    Q (p.run perform s).1 (p.run perform s).2 := by
  induction p generalizing s with
  | call i next ih => exact ih _ (h.2 _ _ rfl)
  | _ => exact h.1

end Program
