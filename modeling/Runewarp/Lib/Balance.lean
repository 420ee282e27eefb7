import Mathlib.Data.List.MinMax
import Mathlib.Data.Nat.Dist
import Mathlib.Logic.Function.Basic
import Mathlib.Logic.Relation

/-!
# The least loaded

What a search for the least loaded of a list finds, and what becomes of the loads when
each search is followed by one more unit on what it found: the loads of any two stay as
close as they were, or one apart.
-/

namespace Runewarp.Balance

/-- In a list that ascends in `pos`, `argmin` finds the least, and of several the one with
the least `pos`. -/
theorem argmin_eq_some_iff_of_ascending {α : Type} [DecidableEq α] {f pos : α → ℕ} {l : List α}
    (hl : l.Pairwise fun a b => pos a < pos b) {m : α} :
    l.argmin f = some m ↔
      m ∈ l ∧ ∀ a ∈ l, f m ≤ f a ∧ (f a = f m → pos m ≤ pos a) := by
  -- The place of an element in the list says no more than its `pos`.
  have hid : ∀ a ∈ l, ∀ b ∈ l, l.idxOf a ≤ l.idxOf b ↔ pos a ≤ pos b := by
    intro a ha b hb
    have hlt : ∀ {i j : ℕ} (hi : i < l.length) (hj : j < l.length), i < j → pos l[i] < pos l[j] :=
      fun hi hj hij => List.pairwise_iff_getElem.mp hl _ _ hi hj hij
    have hla := List.idxOf_lt_length_of_mem ha
    have hlb := List.idxOf_lt_length_of_mem hb
    have hga : l[l.idxOf a] = a := List.getElem_idxOf hla
    have hgb : l[l.idxOf b] = b := List.getElem_idxOf hlb
    constructor
    · intro hle
      rcases Nat.lt_or_eq_of_le hle with h | h
      · have hp := hlt hla hlb h
        rw [hga, hgb] at hp
        exact Nat.le_of_lt hp
      · rw [← hga, ← hgb]
        simp only [h, Nat.le_refl]
    · intro hle
      by_contra hgt
      have hp := hlt hlb hla (Nat.not_le.mp hgt)
      rw [hga, hgb] at hp
      exact absurd hle (Nat.not_le.mpr hp)
  rw [List.argmin_eq_some_iff]
  constructor
  · rintro ⟨hm, hmi, hf⟩
    refine ⟨hm, fun a ha => ⟨hmi a ha, fun heq => ?_⟩⟩
    exact (hid m hm a ha).mp (hf a ha (Nat.le_of_eq heq))
  · rintro ⟨hm, hls⟩
    refine ⟨hm, fun a ha => (hls a ha).1, fun a ha hle => ?_⟩
    exact (hid m hm a ha).mpr ((hls a ha).2 (Nat.le_antisymm hle (hls a ha).1))

section Raise

variable {ι : Type} [DecidableEq ι] {S : ι → Prop} {load load' : ι → ℕ} {a b : ι}

/-- One of the least loaded gets one more. -/
inductive Raise (S : ι → Prop) (load : ι → ℕ) : (ι → ℕ) → Prop
  | least (i : ι) (hi : S i) (hleast : ∀ j, S j → load i ≤ load j) :
      Raise S load (Function.update load i (load i + 1))

theorem Raise.dist_le (h : Raise S load load') (ha : S a) (hb : S b) :
    (load' a).dist (load' b) ≤ max ((load a).dist (load b)) 1 := by
  obtain ⟨i, hi, hl⟩ := h
  have hia := hl a ha
  have hib := hl b hb
  unfold Nat.dist
  by_cases hai : a = i
  · by_cases hbi : b = i
    · subst hai
      subst hbi
      simp
    · subst hai
      rw [Function.update_self, Function.update_of_ne hbi]
      omega
  · rw [Function.update_of_ne hai]
    by_cases hbi : b = i
    · subst hbi
      rw [Function.update_self]
      omega
    · rw [Function.update_of_ne hbi]
      omega

theorem dist_le_of_raises (h : Relation.ReflTransGen (Raise S) load load') (ha : S a) (hb : S b) :
    (load' a).dist (load' b) ≤ max ((load a).dist (load b)) 1 := by
  induction h with
  | refl => exact Nat.le_max_left _ _
  | tail _ hr ih =>
    have hs := hr.dist_le ha hb
    omega

end Raise

end Runewarp.Balance
