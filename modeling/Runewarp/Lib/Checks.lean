import Mathlib.Data.List.Basic
import Mathlib.Data.List.Forall2
import Mathlib.Data.List.Induction

/-!
# Checks one after another

What a sequence of checks that may fail comes to: it succeeds when each of them does, and
otherwise fails with the error of the first that does not.
-/

namespace Runewarp.Checks

variable {ε α β : Type}

variable {x : Except ε α} {f : α → Except ε β} {xs : List α} {ys : List β}

theorem bind_eq_ok {b : β} : (x >>= f) = .ok b ↔ ∃ a, x = .ok a ∧ f a = .ok b := by
  cases x with
  | error e =>
    constructor
    · intro h
      cases h
    · rintro ⟨_, h, -⟩
      cases h
  | ok a =>
    constructor
    · intro h
      exact ⟨a, rfl, h⟩
    · rintro ⟨_, h, hf⟩
      cases h
      exact hf

theorem bind_eq_error {e : ε} :
    (x >>= f) = .error e ↔ x = .error e ∨ ∃ a, x = .ok a ∧ f a = .error e := by
  cases x with
  | error e' =>
    constructor
    · intro h
      cases h
      exact .inl rfl
    · rintro (h | ⟨_, h, -⟩) <;> cases h
      rfl
  | ok a =>
    constructor
    · intro h
      exact .inr ⟨a, rfl, h⟩
    · rintro (h | ⟨_, h, hf⟩)
      · cases h
      · cases h
        exact hf

theorem mapM_eq_ok : xs.mapM f = .ok ys ↔ List.Forall₂ (fun x y => f x = .ok y) xs ys := by
  induction xs generalizing ys with
  | nil =>
    rw [List.mapM_nil, List.forall₂_nil_left_iff]
    constructor
    · intro h
      cases h
      rfl
    · rintro rfl
      rfl
  | cons x xs ih =>
    rw [List.mapM_cons, bind_eq_ok, List.forall₂_cons_left_iff]
    constructor
    · rintro ⟨y, hy, h⟩
      obtain ⟨ys', hys, h⟩ := bind_eq_ok.mp h
      cases h
      exact ⟨y, ys', hy, ih.mp hys, rfl⟩
    · rintro ⟨y, ys', hy, hys, rfl⟩
      exact ⟨y, hy, bind_eq_ok.mpr ⟨ys', ih.mpr hys, rfl⟩⟩

theorem mapM_eq_some {f : α → Option β} :
    xs.mapM f = some ys ↔ List.Forall₂ (fun x y => f x = some y) xs ys := by
  induction xs generalizing ys with
  | nil =>
    rw [List.mapM_nil, List.forall₂_nil_left_iff]
    constructor
    · intro h
      cases h
      rfl
    · rintro rfl
      rfl
  | cons x xs ih =>
    rw [List.mapM_cons, List.forall₂_cons_left_iff]
    constructor
    · intro h
      obtain ⟨y, hy, h⟩ := Option.bind_eq_some_iff.mp h
      obtain ⟨ys', hys, h⟩ := Option.bind_eq_some_iff.mp h
      cases h
      exact ⟨y, ys', hy, ih.mp hys, rfl⟩
    · rintro ⟨y, ys', hy, hys, rfl⟩
      exact Option.bind_eq_some_iff.mpr
        ⟨y, hy, Option.bind_eq_some_iff.mpr ⟨ys', ih.mpr hys, rfl⟩⟩

theorem exists_of_mem {R : α → β → Prop} (h : List.Forall₂ R xs ys) {x : α} (hx : x ∈ xs) :
    ∃ y ∈ ys, R x y := by
  induction h with
  | nil => cases hx
  | cons hh _ ih =>
    rcases List.mem_cons.mp hx with rfl | hx
    · exact ⟨_, .head _, hh⟩
    · obtain ⟨y, hy, hxy⟩ := ih hx
      exact ⟨y, .tail _ hy, hxy⟩

/-- Lists that agree element by element in what two functions make of them. -/
theorem map_eq_map_of_forall₂ {γ : Type} {f : α → γ} {g : β → γ}
    (h : List.Forall₂ (fun x y => f x = g y) xs ys) : xs.map f = ys.map g := by
  rw [← List.forall₂_eq_eq_eq, List.forall₂_map_left_iff, List.forall₂_map_right_iff]
  exact h

/-- Every error is of one kind. -/
def Errs (P : ε → Prop) (x : Except ε α) : Prop := ∀ e, x = .error e → P e

variable {P : ε → Prop}

theorem Errs.bind (hx : Errs P x) (hf : ∀ a, Errs P (f a)) : Errs P (x >>= f) := by
  intro e h
  rcases bind_eq_error.mp h with h | ⟨a, -, h⟩
  · exact hx e h
  · exact hf a e h

theorem errs_mapM (h : ∀ a, Errs P (f a)) : Errs P (xs.mapM f) := by
  induction xs with
  | nil => exact fun e he => by cases he
  | cons x xs ih =>
    rw [List.mapM_cons]
    exact (h x).bind fun y => ih.bind fun ys e he => by cases he

section Distinct

variable [DecidableEq α]

/-- Fails at the first element that was seen before. -/
def distinct (error : α → ε) : List α → List α → Except ε Unit
  | _, [] => .ok ()
  | seen, x :: xs => if x ∈ seen then .error (error x) else distinct error (x :: seen) xs

theorem distinct_eq_ok {error : α → ε} {seen xs : List α} {u : Unit} :
    distinct error seen xs = .ok u ↔ xs.Nodup ∧ ∀ x ∈ xs, x ∉ seen := by
  induction xs generalizing seen with
  | nil => simp [distinct]
  | cons x xs ih =>
    unfold distinct
    by_cases hx : x ∈ seen
    · simp [hx]
    · rw [if_neg hx, ih]
      simp only [List.nodup_cons, List.mem_cons, forall_eq_or_imp, not_or]
      constructor
      · rintro ⟨hn, hs⟩
        exact ⟨⟨fun hm => (hs x hm).1 rfl, hn⟩, hx, fun y hy => (hs y hy).2⟩
      · rintro ⟨⟨hm, hn⟩, -, hs⟩
        exact ⟨hn, fun y hy => ⟨fun heq => hm (heq ▸ hy), hs y hy⟩⟩

theorem errs_distinct {error : α → ε} (h : ∀ x, P (error x)) {seen xs : List α} :
    Errs P (distinct error seen xs) := by
  induction xs generalizing seen with
  | nil => exact fun e he => by cases he
  | cons x xs ih =>
    unfold distinct
    split
    · exact fun e he => by cases he; exact h x
    · exact ih

end Distinct

end Runewarp.Checks
