import Mathlib.Algebra.Group.Nat.Defs
import Mathlib.Data.List.Induction
import Mathlib.Data.Nat.Basic

/-!
# Hexadecimal texts

Numbers of a fixed width as lower-case hexadecimal texts, the most significant digit
first.  A text of lower-case digits is the text of one number.
-/

namespace Runewarp.Hex

/-- The value of a digit, in either case. -/
def digitValue (c : Char) : Option ℕ :=
  if '0' ≤ c ∧ c ≤ '9' then some (c.toNat - 48)
  else if 'a' ≤ c ∧ c ≤ 'f' then some (c.toNat - 87)
  else if 'A' ≤ c ∧ c ≤ 'F' then some (c.toNat - 55)
  else none

/-- A lower-case digit. -/
def isLower (c : Char) : Bool :=
  decide ('0' ≤ c ∧ c ≤ '9') || decide ('a' ≤ c ∧ c ≤ 'f')

theorem digitValue_digitChar : ∀ {n : ℕ}, n < 16 → digitValue (Nat.digitChar n) = some n := by
  decide

theorem isLower_digitChar : ∀ {n : ℕ}, n < 16 → isLower (Nat.digitChar n) = true := by
  decide

theorem exists_digitChar {c : Char} (h : isLower c = true) : ∃ n < 16, c = Nat.digitChar n := by
  have hr : (48 ≤ c.toNat ∧ c.toNat ≤ 57) ∨ (97 ≤ c.toNat ∧ c.toNat ≤ 102) := by
    simpa [isLower, Char.le_def, UInt32.le_iff_toNat_le] using h
  have hd : ∀ m < 103, ((48 ≤ m ∧ m ≤ 57) ∨ 97 ≤ m) →
      ∃ n < 16, Char.ofNat m = Nat.digitChar n := by
    decide
  obtain ⟨n, hn, heq⟩ := hd c.toNat (by omega) (by omega)
  exact ⟨n, hn, by rw [← heq, Char.ofNat_toNat]⟩

/-- The digits of a number, for a width. -/
def digits : ℕ → ℕ → List ℕ
  | 0, _ => []
  | width + 1, n => n / 16 ^ width % 16 :: digits width n

/-- The number of a list of digits. -/
def ofDigits (ds : List ℕ) : ℕ := ds.foldl (fun n d => n * 16 + d) 0

@[simp] theorem length_digits (width n : ℕ) : (digits width n).length = width := by
  induction width with
  | zero => rfl
  | succ width ih => rw [digits, List.length_cons, ih]

variable {width n : ℕ} {ds : List ℕ}

theorem lt_of_mem_digits {d : ℕ} (h : d ∈ digits width n) : d < 16 := by
  induction width with
  | zero => cases h
  | succ width ih =>
    rcases List.mem_cons.mp h with rfl | h
    · exact Nat.mod_lt _ (by decide)
    · exact ih h

theorem foldl_digits (width n m : ℕ) :
    (digits width n).foldl (fun n d => n * 16 + d) m = m * 16 ^ width + n % 16 ^ width := by
  induction width generalizing m with
  | zero => simp [digits, Nat.mod_one]
  | succ width ih =>
    rw [digits, List.foldl_cons, ih, Nat.add_mul, Nat.mul_assoc, ← Nat.pow_succ', Nat.add_assoc]
    congr 1
    rw [Nat.pow_succ, Nat.mod_mul, Nat.mul_comm, Nat.add_comm]

theorem ofDigits_digits (h : n < 16 ^ width) : ofDigits (digits width n) = n := by
  rw [ofDigits, foldl_digits, Nat.zero_mul, Nat.zero_add, Nat.mod_eq_of_lt h]

theorem ofDigits_concat (ds : List ℕ) (d : ℕ) : ofDigits (ds ++ [d]) = ofDigits ds * 16 + d := by
  rw [ofDigits, List.foldl_append]
  rfl

theorem digits_succ_concat (width n : ℕ) :
    digits (width + 1) n = digits width (n / 16) ++ [n % 16] := by
  induction width with
  | zero => simp [digits]
  | succ width ih =>
    rw [digits, ih, digits, List.cons_append, Nat.div_div_eq_div_mul, Nat.pow_succ']

theorem digits_ofDigits (h : ∀ d ∈ ds, d < 16) : digits ds.length (ofDigits ds) = ds := by
  induction ds using List.reverseRecOn with
  | nil => rfl
  | append_singleton ds d ih =>
    have hd : d < 16 := h d (by simp)
    have hds := ih fun x hx => h x (by simp [hx])
    rw [List.length_append, List.length_singleton, digits_succ_concat, ofDigits_concat,
      Nat.mul_comm, Nat.mul_add_div (by decide), Nat.div_eq_of_lt hd, Nat.add_zero, hds,
      Nat.mul_add_mod, Nat.mod_eq_of_lt hd]

theorem ofDigits_lt (h : ∀ d ∈ ds, d < 16) : ofDigits ds < 16 ^ ds.length := by
  induction ds using List.reverseRecOn with
  | nil => decide
  | append_singleton ds d ih =>
    have hd : d < 16 := h d (by simp)
    have hds := ih fun x hx => h x (by simp [hx])
    rw [ofDigits_concat, List.length_append, List.length_singleton, Nat.pow_succ]
    omega

theorem getElem?_digits {i : ℕ} (n : ℕ) (h : i < width) :
    (digits width n)[i]? = some (n / 16 ^ (width - 1 - i) % 16) := by
  induction width generalizing i with
  | zero => cases h
  | succ width ih =>
    cases i with
    | zero => rfl
    | succ i =>
      rw [digits, List.getElem?_cons_succ, ih (Nat.lt_of_succ_lt_succ h)]
      congr 4
      omega

/-- The text of a number. -/
def text (width n : ℕ) : List Char := (digits width n).map Nat.digitChar

@[simp] theorem length_text (width n : ℕ) : (text width n).length = width := by
  rw [text, List.length_map, length_digits]

theorem getElem?_text {i : ℕ} (n : ℕ) (h : i < width) :
    (text width n)[i]? = some (Nat.digitChar (n / 16 ^ (width - 1 - i) % 16)) := by
  rw [text, List.getElem?_map, getElem?_digits n h, Option.map_some]

theorem isLower_of_mem_text {c : Char} (h : c ∈ text width n) : isLower c = true := by
  obtain ⟨d, hd, rfl⟩ := List.mem_map.mp h
  exact isLower_digitChar (lt_of_mem_digits hd)

theorem mapM_digitValue (h : ∀ d ∈ ds, d < 16) :
    (ds.map Nat.digitChar).mapM digitValue = some ds := by
  induction ds with
  | nil => rfl
  | cons d ds ih =>
    rw [List.map_cons, List.mapM_cons, digitValue_digitChar (h d (by simp)),
      ih fun x hx => h x (by simp [hx])]
    rfl

theorem mapM_text (width n : ℕ) : (text width n).mapM digitValue = some (digits width n) :=
  mapM_digitValue fun _ => lt_of_mem_digits

/-- A text of lower-case digits is the text of a number of its width. -/
theorem exists_text {cs : List Char} (h : ∀ c ∈ cs, isLower c = true) :
    ∃ n < 16 ^ cs.length, cs = text cs.length n := by
  have hdi : ∃ ds : List ℕ, (∀ d ∈ ds, d < 16) ∧ cs = ds.map Nat.digitChar := by
    induction cs with
    | nil => exact ⟨[], by simp, rfl⟩
    | cons c cs ih =>
      obtain ⟨ds, hds, rfl⟩ := ih fun x hx => h x (by simp [hx])
      obtain ⟨d, hd, rfl⟩ := exists_digitChar (h c (by simp))
      refine ⟨d :: ds, ?_, rfl⟩
      intro x hx
      rcases List.mem_cons.mp hx with rfl | hx
      · exact hd
      · exact hds x hx
  obtain ⟨ds, hds, rfl⟩ := hdi
  refine ⟨ofDigits ds, ?_, ?_⟩
  · rw [List.length_map]
    exact ofDigits_lt hds
  · rw [List.length_map, text, digits_ofDigits hds]

end Runewarp.Hex
