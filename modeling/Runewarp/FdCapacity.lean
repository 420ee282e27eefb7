import Mathlib.Algebra.BigOperators.Fin
import Mathlib.Algebra.Order.BigOperators.Group.Finset
import Mathlib.Data.Fin.Tuple.Reflection

/-!
# Startup sizing for Visitor sockets

`server_capacity` fits three capacities into the descriptors that are available: each
gets its share of them, rounded down, and what the rounding leaves over is given out
again.  The source computes in `u128`; `serverCapacityChecked` has its machine operations,
and no result where one of them overflows, goes below zero or loses bits in a cast.
-/

namespace Runewarp.FdCapacity

open Finset

/-- The loop over the capacities that gives out what is left over, never above what is
configured. -/
def giveRemaining (configured : Fin 3 → Nat) :
    List (Fin 3) → (Fin 3 → Nat) → Nat → (Fin 3 → Nat)
  | [], result, _ => result
  | i :: order, result, remaining =>
    let extra := min remaining (configured i - result i)
    giveRemaining configured order (Function.update result i (result i + extra))
      (remaining - extra)

/-- The proportional share of each capacity, rounded down. -/
def shares (configured : Fin 3 → Nat) (available : Nat) : Fin 3 → Nat :=
  fun i => configured i * available / ∑ j, configured j

def serverCapacity (configured : Fin 3 → Nat) (nofile reserve : Nat) : Fin 3 → Nat :=
  let available := nofile - reserve
  if ∑ i, configured i ≤ available then configured
  else
    let result := shares configured available
    giveRemaining configured [2, 0, 1] result (available - ∑ i, result i)

/-! ## Machine operations -/

/-- A value in a type of `w` bits: what an operation or a cast gives. -/
def inBits (w n : Nat) : Option Nat := if n < 2 ^ w then some n else none

def checkedSub (a b : Nat) : Option Nat := if b ≤ a then some (a - b) else none

/-- A sum in `u128`. -/
def checkedSum (values : Fin 3 → Nat) : Option Nat := do
  inBits 128 ((← inBits 128 (values 0 + values 1)) + values 2)

def checkedShare (w configured available total : Nat) : Option Nat := do
  let product ← inBits 128 (configured * available)
  if total = 0 then none else inBits w (product / total)

def giveRemainingChecked (w : Nat) (configured : Fin 3 → Nat) :
    List (Fin 3) → (Fin 3 → Nat) → Nat → Option (Fin 3 → Nat)
  | [], result, _ => some result
  | i :: order, result, remaining => do
    let extra ← inBits w (min remaining (← checkedSub (configured i) (result i)))
    let capacity ← inBits w (result i + extra)
    giveRemainingChecked w configured order (Function.update result i capacity)
      (← checkedSub remaining extra)

/-- `server_capacity`, where a `usize` has `w` bits. -/
def serverCapacityChecked (w : Nat) (configured : Fin 3 → Nat) (nofile reserve : Nat) :
    Option (Fin 3 → Nat) := do
  let available := nofile - reserve
  let total ← checkedSum configured
  if total ≤ available then some configured
  else do
    let result := ![← checkedShare w (configured 0) available total,
      ← checkedShare w (configured 1) available total,
      ← checkedShare w (configured 2) available total]
    let remaining ← checkedSub available (← checkedSum result)
    giveRemainingChecked w configured [2, 0, 1] result remaining

def fdReserve : Nat := 512

/-- The places of the capacities in the arrays of the source. -/
abbrev pendingVisitors : Fin 3 := 0
abbrev pendingStreamOpens : Fin 3 := 1
abbrev activeRoutedStreams : Fin 3 := 2

/-- `apply_server`, without its warning; the limit is not always known. -/
def applyServer (configured : Fin 3 → Nat) (nofile : Option Nat) (reserve : Nat) : Fin 3 → Nat :=
  match nofile with
  | none => configured
  | some nofile => serverCapacity configured nofile reserve

/-! ## The split -/

/-- The descriptors are split up: each capacity has its share, and up to two more. -/
structure Splits (configured : Fin 3 → Nat) (available : Nat) (result : Fin 3 → Nat) : Prop where
  sum : ∑ i, result i = available
  le : ∀ i, result i ≤ configured i
  shares_le : ∀ i, shares configured available i ≤ result i
  le_shares : ∀ i, result i ≤ shares configured available i + 2

section

variable {configured result : Fin 3 → Nat} {w available nofile reserve remaining : Nat}

theorem sum_shares_le : ∑ i, shares configured available i ≤ available := by
  rcases Nat.eq_zero_or_pos (∑ j, configured j) with hz | hp
  · simp [shares, hz]
  · refine Nat.le_of_mul_le_mul_right ?_ hp
    calc (∑ i, shares configured available i) * ∑ j, configured j
        = ∑ i, configured i * available / (∑ j, configured j) * ∑ j, configured j := sum_mul ..
      _ ≤ ∑ i, configured i * available := sum_le_sum fun i _ => Nat.div_mul_le_self _ _
      _ = available * ∑ j, configured j := by rw [← sum_mul, Nat.mul_comm]

/-- Rounding leaves less than one for each capacity. -/
theorem lt_sum_shares_add (hp : 0 < ∑ j, configured j) :
    available < ∑ i, shares configured available i + 3 := by
  refine Nat.lt_of_mul_lt_mul_right (a := ∑ j, configured j) ?_
  calc available * ∑ j, configured j
      = ∑ i, configured i * available := by rw [← sum_mul, Nat.mul_comm]
    _ < ∑ i, (shares configured available i * (∑ j, configured j) + ∑ j, configured j) :=
        sum_lt_sum_of_nonempty univ_nonempty fun i _ => Nat.lt_div_mul_add hp
    _ = (∑ i, shares configured available i + 3) * ∑ j, configured j := by
        rw [sum_add_distrib, ← sum_mul, sum_const, Nat.add_mul]
        rfl

theorem shares_le (h : available < ∑ j, configured j) (i : Fin 3) :
    shares configured available i ≤ configured i := by
  refine Nat.div_le_of_le_mul ?_
  rw [Nat.mul_comm]
  exact Nat.mul_le_mul_right _ h.le

/-- There is room for what rounding leaves, so all of it is given out. -/
theorem splits_serverCapacity (h : nofile - reserve < ∑ i, configured i) :
    Splits configured (nofile - reserve) (serverCapacity configured nofile reserve) := by
  have hs : ∑ i, shares configured (nofile - reserve) i ≤ nofile - reserve := sum_shares_le
  have hr := @lt_sum_shares_add _ (nofile - reserve) (Nat.zero_lt_of_lt h)
  have hle := shares_le h
  rw [serverCapacity, if_neg (Nat.not_le.mpr h)]
  have h0 := hle 0
  have h1 := hle 1
  have h2 := hle 2
  generalize nofile - reserve = available at *
  simp only [Fin.sum_univ_three] at h hs hr
  constructor <;>
    simp [Fin.sum_univ_three, Fin.forall_fin_succ, giveRemaining, Function.update] <;> omega

theorem sum_serverCapacity_le (configured : Fin 3 → Nat) (nofile reserve : Nat) :
    ∑ i, serverCapacity configured nofile reserve i ≤ nofile - reserve := by
  by_cases h : ∑ i, configured i ≤ nofile - reserve
  · rwa [serverCapacity, if_pos h]
  · exact (splits_serverCapacity (Nat.lt_of_not_le h)).sum.le

/-! ## No operation overflows -/

theorem inBits_eq {n : Nat} (h : n < 2 ^ w) : inBits w n = some n := if_pos h

theorem checkedSum_eq (h : ∀ i, result i < 2 ^ 64) : checkedSum result = some (∑ i, result i) := by
  have h0 := h 0
  have h1 := h 1
  have h2 := h 2
  rw [checkedSum, Fin.sum_univ_three, inBits_eq (by omega)]
  exact inBits_eq (by omega)

theorem checkedShare_eq (hc : ∀ i, configured i < 2 ^ w) (hw : w ≤ 64) (ha : available < 2 ^ 64)
    (h : available < ∑ j, configured j) (i : Fin 3) :
    checkedShare w (configured i) available (∑ j, configured j) =
      some (shares configured available i) := by
  have hi : configured i < 2 ^ 64 := (hc i).trans_le (Nat.pow_le_pow_right Nat.two_pos hw)
  have hp : configured i * available < 2 ^ 128 :=
    (Nat.mul_lt_mul'' hi ha).trans_eq (Nat.pow_add 2 64 64).symm
  rw [checkedShare, inBits_eq hp, Option.bind_eq_bind, Option.bind_some,
    if_neg (Nat.ne_of_gt (Nat.zero_lt_of_lt h))]
  exact inBits_eq ((shares_le h i).trans_lt (hc i))

theorem giveRemainingChecked_eq (hc : ∀ i, configured i < 2 ^ w) (order : List (Fin 3))
    (hle : ∀ i, result i ≤ configured i) :
    giveRemainingChecked w configured order result remaining =
      some (giveRemaining configured order result remaining) := by
  induction order generalizing result remaining with
  | nil => rfl
  | cons i order ih =>
    have hi := hle i
    have hw := hc i
    have hm := Nat.min_le_right remaining (configured i - result i)
    rw [giveRemainingChecked, checkedSub, if_pos hi]
    simp only [Option.bind_eq_bind, Option.bind_some]
    rw [inBits_eq (by omega), Option.bind_some, inBits_eq (by omega), Option.bind_some, checkedSub,
      if_pos (Nat.min_le_left _ _), Option.bind_some]
    refine ih ((Function.forall_update_iff _ fun i x => x ≤ configured i).mpr
      ⟨?_, fun j _ => hle j⟩)
    omega

theorem serverCapacityChecked_eq (hc : ∀ i, configured i < 2 ^ w) (hw : w ≤ 64)
    (hn : nofile < 2 ^ 64) : serverCapacityChecked w configured nofile reserve =
      some (serverCapacity configured nofile reserve) := by
  have hc64 : ∀ i, configured i < 2 ^ 64 := fun i =>
    (hc i).trans_le (Nat.pow_le_pow_right Nat.two_pos hw)
  rw [serverCapacityChecked, checkedSum_eq hc64, Option.bind_eq_bind, Option.bind_some,
    serverCapacity]
  dsimp only
  split
  next => rfl
  next h =>
    have hlt := Nat.lt_of_not_le h
    have hle := shares_le hlt
    have hv : ∀ f : Fin 3 → Nat, ![f 0, f 1, f 2] = f := FinVec.etaExpand_eq
    have hsh := checkedShare_eq hc hw ((Nat.sub_le nofile reserve).trans_lt hn) hlt
    rw [hsh 0, Option.bind_some, hsh 1, Option.bind_some, hsh 2, Option.bind_some, hv,
      checkedSum_eq fun i => (hle i).trans_lt (hc64 i), Option.bind_some, checkedSub,
      if_pos sum_shares_le, Option.bind_some]
    exact giveRemainingChecked_eq hc _ hle

end

/-- For all values of the machine types there is a result, each capacity is at most what is
configured, all are as configured exactly when they fit, and else they split what there
is. -/
theorem server_capacity_splits (w : Nat) (configured : Fin 3 → Nat) (nofile reserve : Nat)
    (hc : ∀ i, configured i < 2 ^ w) (hw : w ≤ 64) (hn : nofile < 2 ^ 64) :
    ∃ result, serverCapacityChecked w configured nofile reserve = some result ∧
      (∀ i, result i ≤ configured i) ∧
      (result = configured ↔ ∑ i, configured i ≤ nofile - reserve) ∧
      (nofile - reserve < ∑ i, configured i → Splits configured (nofile - reserve) result) := by
  refine ⟨_, serverCapacityChecked_eq hc hw hn, ?_⟩
  by_cases h : ∑ i, configured i ≤ nofile - reserve
  · rw [serverCapacity, if_pos h]
    exact ⟨fun _ => le_rfl, iff_of_true rfl h, fun hlt => absurd h (Nat.not_le.mpr hlt)⟩
  · have hs := splits_serverCapacity (Nat.lt_of_not_le h)
    refine ⟨hs.le, iff_of_false (fun heq => h ?_) h, fun _ => hs⟩
    exact heq ▸ hs.sum.le

theorem server_capacity_splits_thirds : ∃ result,
    serverCapacityChecked 64 ![10, 10, 10] 520 512 = some result ∧
      Splits ![10, 10, 10] 8 result := by
  obtain ⟨result, hs, -, -, hsplit⟩ := server_capacity_splits 64 ![10, 10, 10] 520 512
    (by decide) (by decide) (by decide)
  exact ⟨result, hs, hsplit (by decide)⟩

end Runewarp.FdCapacity
