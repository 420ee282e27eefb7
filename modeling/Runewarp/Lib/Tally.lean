import Mathlib.Algebra.GroupWithZero.Nat
import Mathlib.Algebra.Order.BigOperators.Group.List
import Mathlib.Algebra.Order.Group.Nat

/-!
# Counters that tasks share

A counter that tasks raise and lower is right when it equals what the tasks account
for: `tally weight tasks`, where `weight` says how much a task has on the counter at
the point where it stands.  A step changes one task of the list, or adds one, and the
counter by the difference.
-/

/-- What the tasks account for together. -/
def tally {α : Type} (weight : α → Nat) (tasks : List α) : Nat := (tasks.map weight).sum

section

variable {α : Type} (weight : α → Nat) {tasks : List α} {x y : α} {i : Nat}

@[simp] theorem tally_nil : tally weight [] = 0 := rfl

@[simp] theorem tally_cons : tally weight (x :: tasks) = weight x + tally weight tasks := by
  simp [tally]

@[simp] theorem tally_concat : tally weight (tasks ++ [x]) = tally weight tasks + weight x := by
  simp [tally]

theorem weight_le_tally (hx : x ∈ tasks) : weight x ≤ tally weight tasks :=
  List.single_le_sum (by simp) _ (List.mem_map_of_mem hx)

/-- Task `i` moves from `x` to `y`: what it had was on the counter. -/
theorem tally_set (y : α) (h : tasks[i]? = some x) :
    weight x ≤ tally weight tasks ∧
      tally weight (tasks.set i y) + weight x = tally weight tasks + weight y := by
  induction tasks generalizing i with
  | nil => simp at h
  | cons z tasks ih =>
    cases i with
    | zero =>
      cases h
      simp only [List.set_cons_zero, tally_cons]
      omega
    | succ i =>
      have hr := ih (i := i) (by simpa using h)
      simp only [List.set_cons_succ, tally_cons]
      omega

theorem tally_add (weight' : α → Nat) (tasks : List α) :
    tally (fun x => weight x + weight' x) tasks = tally weight tasks + tally weight' tasks :=
  List.sum_map_add

variable {weight}

/-- The tasks that have something on a counter are no more than it says. -/
theorem countP_le_tally {p : α → Bool} (h : ∀ x ∈ tasks, p x = true → 0 < weight x) :
    tasks.countP p ≤ tally weight tasks := by
  induction tasks with
  | nil => exact le_rfl
  | cons x tasks ih =>
    have hr := ih fun y hy => h y (.tail _ hy)
    have hx := h x (.head _)
    simp only [List.countP_cons, tally_cons]
    split
    next hp =>
      have hpo := hx hp
      omega
    next => omega

/-- A counter on which each of some tasks has one is their number. -/
theorem tally_eq_countP {p : α → Bool} (h : ∀ x ∈ tasks, weight x = if p x then 1 else 0) :
    tally weight tasks = tasks.countP p := by
  induction tasks with
  | nil => rfl
  | cons x tasks ih =>
    have hr := ih fun y hy => h y (.tail _ hy)
    rw [tally_cons, List.countP_cons, h x (.head _), hr, Nat.add_comm]

/-- A counter at zero says that no task has anything on it. -/
theorem weight_eq_zero (h : tally weight tasks = 0) (hx : x ∈ tasks) : weight x = 0 := by
  have hle := weight_le_tally weight hx
  omega

theorem forall_mem_concat {P : α → Prop} (h : ∀ z ∈ tasks, P z) (hy : P y) :
    ∀ z ∈ tasks ++ [y], P z := by
  intro z hz
  rcases List.mem_append.mp hz with hz | hz
  · exact h z hz
  · rwa [List.mem_singleton.mp hz]

/-- What holds of every task holds of every task after one of them has moved. -/
theorem forall_mem_set {P : α → Prop} (h : ∀ z ∈ tasks, P z) (hy : P y) :
    ∀ z ∈ tasks.set i y, P z := by
  intro z hz
  rcases List.mem_or_eq_of_mem_set hz with hz | rfl
  · exact h z hz
  · exact hy

theorem getElem?_set_moved (hi : tasks[i]? = some x) : (tasks.set i y)[i]? = some y :=
  List.getElem?_set_self (List.getElem?_eq_some_iff.mp hi).1

theorem getElem?_append_some (hi : tasks[i]? = some x) (more : List α) :
    (tasks ++ more)[i]? = some x :=
  (List.getElem?_append_left (List.getElem?_eq_some_iff.mp hi).1).trans hi

/-- What some task has, some task has after one of them has moved and kept it. -/
theorem exists_mem_set {P : α → Prop} (hi : tasks[i]? = some x) (hk : P x → P y)
    (h : ∃ z ∈ tasks, P z) : ∃ z ∈ tasks.set i y, P z := by
  obtain ⟨z, hz, hPz⟩ := h
  obtain ⟨j, hj⟩ := List.mem_iff_getElem?.mp hz
  by_cases hij : i = j
  · subst hij
    cases hi.symm.trans hj
    exact ⟨y, List.mem_of_getElem? (getElem?_set_moved hi), hk hPz⟩
  · exact ⟨z, List.mem_of_getElem? ((List.getElem?_set_ne hij).trans hj), hPz⟩

theorem of_getElem?_concat (h : (tasks ++ [y])[i]? = some x) :
    tasks[i]? = some x ∨ i = tasks.length ∧ x = y := by
  rw [List.getElem?_append] at h
  split at h
  · exact .inl h
  · next hlt =>
    obtain ⟨hz, hx⟩ := List.getElem?_eq_some_iff.mp h
    simp only [List.length_singleton, Nat.lt_one_iff] at hz
    simp only [hz, List.getElem_cons_zero] at hx
    exact .inr ⟨by omega, hx.symm⟩

theorem of_getElem?_set {j : Nat} (h : (tasks.set i y)[j]? = some x) :
    j = i ∧ x = y ∨ tasks[j]? = some x := by
  rw [List.getElem?_set] at h
  split at h
  · next hij =>
    subst hij
    split at h
    · cases h
      exact .inl ⟨rfl, rfl⟩
    · cases h
  · exact .inr h

end
