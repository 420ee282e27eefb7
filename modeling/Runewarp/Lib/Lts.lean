import Mathlib.Data.Option.Basic

/-!
# Labelled transition systems with executable steps

A system is a partial step function.  An action resolves every choice the
system leaves open, such as which task is scheduled or what a peer sends, so
`step s a = none` says that `a` is not enabled in `s` and nothing else.

Runs come in two forms.  `Lts.exec` replays a list of actions and computes.
`Lts.Steps ok` is the relation used in theorems: a run in which every step
meets `ok` in the state it is taken from.  A safety property is an invariant
of such runs, proved one step at a time (`Lts.Steps.invariant`).
-/

/-- A deterministic labelled transition system. -/
structure Lts (σ α : Type) where
  /-- The state after an action, or `none` when the action is not enabled. -/
  step : σ → α → Option σ

namespace Lts

variable {σ α : Type} {sys : Lts σ α} {ok ok' : σ → α → Prop}

/-! ## Replayed runs -/

/-- Replay a list of actions. -/
def exec (sys : Lts σ α) : σ → List α → Option σ
  | s, [] => some s
  | s, a :: as => (sys.step s a).bind fun t => sys.exec t as

/-- Replay a list of actions, checking `ok` before each of them. -/
def execWhile (sys : Lts σ α) (ok : σ → α → Prop) [∀ s a, Decidable (ok s a)] :
    σ → List α → Option σ
  | s, [] => some s
  | s, a :: as =>
    if ok s a then (sys.step s a).bind fun t => sys.execWhile ok t as else none

/-! ## Runs whose steps meet a condition -/

/-- A run each of whose steps meets `ok` in the state it is taken from. -/
inductive Steps (sys : Lts σ α) (ok : σ → α → Prop) : σ → σ → Prop where
  | refl : Steps sys ok s s
  | tail : Steps sys ok s t → ok t a → sys.step t a = some u → Steps sys ok s u

/-- A run with no condition on its steps. -/
abbrev Reaches (sys : Lts σ α) : σ → σ → Prop := sys.Steps fun _ _ => True

theorem Steps.head {s t u : σ} {a : α} (hok : ok s a) (hs : sys.step s a = some t)
    (hr : sys.Steps ok t u) : sys.Steps ok s u := by
  induction hr with
  | refl => exact .tail .refl hok hs
  | tail _ hok' hs' ih => exact .tail ih hok' hs'

theorem Steps.trans {s t u : σ} (h₁ : sys.Steps ok s t) (h₂ : sys.Steps ok t u) :
    sys.Steps ok s u := by
  induction h₂ with
  | refl => exact h₁
  | tail _ hok hs ih => exact .tail ih hok hs

theorem Steps.mono {s t : σ} (hi : ∀ s a, ok s a → ok' s a) (h : sys.Steps ok s t) :
    sys.Steps ok' s t := by
  induction h with
  | refl => exact .refl
  | tail _ hok hs ih => exact .tail ih (hi _ _ hok) hs

/-- What holds at the start and is kept by every step that meets the condition
holds at the end of every run. -/
theorem Steps.invariant {I : σ → Prop} {s t : σ}
    (keep : ∀ s a t, I s → ok s a → sys.step s a = some t → I t)
    (h : sys.Steps ok s t) (hs : I s) : I t := by
  induction h with
  | refl => exact hs
  | tail _ hok hst ih => exact keep _ _ _ ih hok hst

/-- Invariants of a view.  When every step of the system is a step of `R` on the
view or leaves the view alone, what `R` keeps holds of the view along every run. -/
theorem Steps.invariant_of_view {τ : Type} {view : σ → τ} {R : τ → τ → Prop} {I : τ → Prop}
    {s t : σ}
    (simulates : ∀ s a t, ok s a → sys.step s a = some t → view t = view s ∨ R (view s) (view t))
    (keep : ∀ v w, I v → R v w → I w)
    (h : sys.Steps ok s t) (hs : I (view s)) : I (view t) := by
  refine h.invariant (I := fun s => I (view s)) ?_ hs
  intro s a t hi hok hst
  rcases simulates s a t hok hst with heq | hr
  · exact heq ▸ hi
  · exact keep _ _ hi hr

theorem Steps.of_execWhile [∀ s a, Decidable (ok s a)] :
    ∀ {as : List α} {s t : σ}, sys.execWhile ok s as = some t → sys.Steps ok s t
  | [], s, t, h => by
      cases h
      exact .refl
  | a :: as, s, t, h => by
      simp only [execWhile] at h
      split at h
      · next hok =>
        obtain ⟨u, hu, hr⟩ := Option.bind_eq_some_iff.mp h
        exact .head hok hu (Steps.of_execWhile hr)
      · cases h

/-- A run that is replayed to a state with `P`. -/
theorem exists_steps [∀ s a, Decidable (ok s a)] {P : σ → Prop} {s : σ} (as : List α)
    (h : ∃ t ∈ sys.execWhile ok s as, P t) : ∃ t, sys.Steps ok s t ∧ P t := by
  obtain ⟨t, ht, hp⟩ := h
  exact ⟨t, .of_execWhile ht, hp⟩

/-- The same, with what holds at the end of every such run. -/
theorem exists_steps_and [∀ s a, Decidable (ok s a)] {P Q : σ → Prop} {s : σ} (as : List α)
    (h : ∃ t ∈ sys.execWhile ok s as, P t) (hq : ∀ t, sys.Steps ok s t → Q t) :
    ∃ t, sys.Steps ok s t ∧ P t ∧ Q t := by
  obtain ⟨t, hs, hp⟩ := exists_steps as h
  exact ⟨t, hs, hp, hq t hs⟩

theorem Steps.of_exec {P : α → Prop} :
    ∀ {as : List α} {s t : σ}, sys.exec s as = some t → (∀ a ∈ as, P a) →
      sys.Steps (fun _ a => P a) s t
  | [], s, t, h, _ => by
      cases h
      exact .refl
  | a :: as, s, t, h, hp => by
      simp only [exec] at h
      obtain ⟨u, hu, hr⟩ := Option.bind_eq_some_iff.mp h
      exact .head (hp a (.head _)) hu
        (Steps.of_exec hr fun b hb => hp b (.tail _ hb))

theorem Reaches.of_exec {as : List α} {s t : σ} (h : sys.exec s as = some t) :
    sys.Reaches s t :=
  Steps.of_exec h fun _ _ => trivial

/-- The run of `as` from `s` takes a step with `P`, of the state before it and its action. -/
def Takes (sys : Lts σ α) (P : σ → α → Prop) (s : σ) (as : List α) : Prop :=
  ∃ before a after u, as = before ++ a :: after ∧ sys.exec s before = some u ∧ P u a

/-- A run takes a step with `P` when none without such steps gets where it does. -/
theorem takes_of_exec {P : σ → α → Prop} :
    ∀ {as : List α} {s t : σ}, sys.exec s as = some t →
      ¬ sys.Steps (fun u a => ¬ P u a) s t → sys.Takes P s as
  | [], s, t, h, hn => by
      simp only [exec, Option.some.injEq] at h
      exact absurd (h ▸ .refl) hn
  | a :: as, s, t, h, hn => by
      by_cases hp : P s a
      · exact ⟨[], a, as, s, rfl, rfl, hp⟩
      · simp only [exec] at h
        obtain ⟨v, hv, hr⟩ := Option.bind_eq_some_iff.mp h
        obtain ⟨before, b, after, u, rfl, hu, hpu⟩ :=
          takes_of_exec hr fun hs => hn (.head hp hv hs)
        exact ⟨a :: before, b, after, u, rfl, by simp only [exec, hv, Option.bind_some, hu], hpu⟩

/-- What every action keeps between the state and a value computed from the actions. -/
theorem exec_foldl {τ : Type} {R : σ → τ → Prop} {f : τ → α → τ}
    (keep : ∀ s a t x, R s x → sys.step s a = some t → R t (f x a)) :
    ∀ {as : List α} {s t : σ} {x : τ}, R s x → sys.exec s as = some t → R t (as.foldl f x)
  | [], s, t, x, hx, h => by
      simp only [exec, Option.some.injEq] at h
      rwa [List.foldl_nil, ← h]
  | a :: as, s, t, x, hx, h => by
      simp only [exec] at h
      obtain ⟨u, hu, hr⟩ := Option.bind_eq_some_iff.mp h
      rw [List.foldl_cons]
      exact exec_foldl keep (keep s a u x hx hu) hr

end Lts
