import Mathlib.Algebra.BigOperators.Group.List.Lemmas
import Mathlib.Data.List.AList
import Runewarp.Lib.Tally

/-!
# Counts by key

A map from keys to numbers that counts owners: an owner that comes adds one to the entry
of its key, one that goes takes one away, and an entry that comes to zero is removed.
`KeyCounts.Counts m f` says that the map has for each key the count `f` gives it, and no
entry where that is zero.
-/

namespace KeyCounts

variable {κ : Type} [DecidableEq κ] {m : AList fun _ : κ => Nat} {f g : κ → Nat} {k : κ}

/-- The map is the count `f`. -/
def Counts (m : AList fun _ : κ => Nat) (f : κ → Nat) : Prop :=
  ∀ k, m.lookup k = if f k = 0 then none else some (f k)

/-- One more for a key. -/
def increment (m : AList fun _ : κ => Nat) (k : κ) : AList fun _ : κ => Nat :=
  m.insert k ((m.lookup k).getD 0 + 1)

/-- One less for a key; an entry that comes to zero is removed. -/
def decrement (m : AList fun _ : κ => Nat) (k : κ) : AList fun _ : κ => Nat :=
  match m.lookup k with
  | none => m
  | some n => if n - 1 = 0 then m.erase k else m.insert k (n - 1)

/-- All counts together. -/
def total (m : AList fun _ : κ => Nat) : Nat := tally (fun entry => entry.2) m.entries

theorem counts_empty : Counts (∅ : AList fun _ : κ => Nat) fun _ => 0 := by
  intro k
  simp

theorem Counts.congr (h : Counts m f) (hfg : ∀ k, g k = f k) : Counts m g := by
  rwa [funext hfg]

theorem Counts.getD (h : Counts m f) (k : κ) : (m.lookup k).getD 0 = f k := by
  rw [h k]
  split
  · next hz => exact hz.symm
  · rfl

theorem Counts.ne_zero (h : Counts m f) {n : Nat} (hn : m.lookup k = some n) :
    n = f k ∧ n ≠ 0 := by
  rw [h k] at hn
  split at hn
  · cases hn
  · next hne =>
    cases hn
    exact ⟨rfl, hne⟩

theorem Counts.increment (h : Counts m f) (hk : g k = f k + 1) (ho : ∀ l, l ≠ k → g l = f l) :
    Counts (increment m k) g := by
  intro l
  by_cases hl : l = k
  · subst hl
    rw [KeyCounts.increment, AList.lookup_insert, h.getD, hk, if_neg (Nat.succ_ne_zero _)]
  · rw [KeyCounts.increment, AList.lookup_insert_ne hl, ho l hl]
    exact h l

theorem Counts.decrement (h : Counts m f) (hk : g k + 1 = f k) (ho : ∀ l, l ≠ k → g l = f l) :
    Counts (decrement m k) g := by
  have hlo : m.lookup k = some (f k) := by
    rw [h k, if_neg (by omega)]
  intro l
  simp only [KeyCounts.decrement, hlo]
  by_cases hl : l = k
  · subst hl
    split
    · next hz => rw [AList.lookup_erase, if_pos (by omega)]
    · next hne =>
      rw [AList.lookup_insert, if_neg (by omega)]
      congr 1
      omega
  · rw [ho l hl]
    split
    · rw [AList.lookup_erase_ne hl]
      exact h l
    · rw [AList.lookup_insert_ne hl]
      exact h l

/-- Counts of the keys in a list add up to its length. -/
theorem Counts.total {keys : List κ} (h : Counts m fun k => keys.count k) :
    total m = keys.length := by
  have he : ∀ entry ∈ m.entries, entry.2 = keys.count entry.1 := by
    intro entry hm
    exact (h.ne_zero (AList.mem_lookup_iff.mpr hm)).1
  have hp : m.keys.Perm keys.dedup := by
    rw [List.perm_ext_iff_of_nodup m.keys_nodup (List.nodup_dedup keys)]
    intro k
    rw [← AList.mem_keys, ← AList.lookup_isSome, h k, List.mem_dedup, ← List.count_pos_iff]
    split
    · next hz => simp [hz]
    · next hne => simp [Nat.pos_of_ne_zero hne]
  calc KeyCounts.total m = (m.keys.map fun k => keys.count k).sum := by
        rw [KeyCounts.total, tally, AList.keys, List.keys, List.map_map]
        congr 1
        exact List.map_congr_left he
    _ = (keys.dedup.map fun k => keys.count k).sum := (hp.map _).sum_eq
    _ = keys.length := List.sum_map_count_dedup_eq_length keys

end KeyCounts
