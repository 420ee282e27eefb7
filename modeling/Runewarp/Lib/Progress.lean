import Runewarp.Lib.Lts

/-!
# Progress towards a goal

Which of its enabled actions a system takes is up to a scheduler, so what a
system is bound to reach is said in two parts: a step of its own is enabled as
long as the goal is open, and no run takes more than a given number of them.
A scheduler that keeps taking enabled steps of the system itself, whatever the
environment does in between, then arrives at the goal.

`Lts.Progress` is the rule: a rank that the system's own steps lower and that no
other step raises.
-/

namespace Lts

variable {σ α : Type} {sys : Lts σ α} {ok own : σ → α → Prop} {I goal : σ → Prop}
  {rank : σ → Nat}

/-- A run with the number of the steps in it that are `own`. -/
inductive Counted (sys : Lts σ α) (ok own : σ → α → Prop) : σ → Nat → σ → Prop where
  | refl : Counted sys ok own s 0 s
  | own : Counted sys ok own s n t → ok t a → own t a → sys.step t a = some u →
      Counted sys ok own s (n + 1) u
  | other : Counted sys ok own s n t → ok t a → sys.step t a = some u →
      Counted sys ok own s n u

/-- An own step that meets the condition is enabled. -/
def CanMove (sys : Lts σ α) (ok own : σ → α → Prop) (s : σ) : Prop :=
  ∃ a t, ok s a ∧ own s a ∧ sys.step s a = some t

theorem CanMove.of_isSome {s : σ} {a : α} (hok : ok s a) (ho : own s a)
    (h : (sys.step s a).isSome = true) : sys.CanMove ok own s := by
  obtain ⟨t, ht⟩ := Option.isSome_iff_exists.mp h
  exact ⟨a, t, hok, ho, ht⟩

/-- No run from `s` takes more than `bound` own steps, and while the goal is open
one is enabled. -/
def Settles (sys : Lts σ α) (ok own : σ → α → Prop) (goal : σ → Prop) (bound : Nat)
    (s : σ) : Prop :=
  ∀ n t, sys.Counted ok own s n t → n ≤ bound ∧ (goal t ∨ sys.CanMove ok own t)

/-- A ranking argument for the states that meet `I`. -/
structure Progress (sys : Lts σ α) (ok own : σ → α → Prop) (I goal : σ → Prop)
    (rank : σ → Nat) : Prop where
  keep : ∀ s a t, I s → ok s a → sys.step s a = some t → I t
  own_lt : ∀ s a t, I s → ok s a → own s a → sys.step s a = some t → rank t < rank s
  le : ∀ s a t, I s → ok s a → sys.step s a = some t → rank t ≤ rank s
  canMove : ∀ s, I s → goal s ∨ sys.CanMove ok own s

theorem Progress.counted (hp : sys.Progress ok own I goal rank) {s t : σ} {n : Nat}
    (hc : sys.Counted ok own s n t) (hs : I s) : I t ∧ rank t + n ≤ rank s := by
  induction hc with
  | refl => exact ⟨hs, Nat.le_refl _⟩
  | own _ hok ho hst ih =>
    obtain ⟨hi, hle⟩ := ih
    have hlt := hp.own_lt _ _ _ hi hok ho hst
    exact ⟨hp.keep _ _ _ hi hok hst, by omega⟩
  | other _ hok hst ih =>
    obtain ⟨hi, hle⟩ := ih
    have hno := hp.le _ _ _ hi hok hst
    exact ⟨hp.keep _ _ _ hi hok hst, by omega⟩

theorem Progress.settles (hp : sys.Progress ok own I goal rank) {s : σ} {bound : Nat}
    (hs : I s) (hb : rank s ≤ bound) : sys.Settles ok own goal bound s := by
  intro n t hc
  obtain ⟨hi, hle⟩ := hp.counted hc hs
  exact ⟨by omega, hp.canMove t hi⟩

end Lts
