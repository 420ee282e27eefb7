import Runewarp.Lib.Json

/-!
# The text of a JSON object of strings

Text is *plain* when it is printable ASCII that needs no escape.  `compact` is what a
`Writer` writes for a record whose fields are plain strings: it puts no blanks.
-/

namespace Runewarp.Json

def quoted (cs : List Char) : List Char := '"' :: (cs ++ ['"'])

def field (entry : String × String) : List Char :=
  quoted entry.1.toList ++ ':' :: quoted entry.2.toList

def compact (fields : List (String × String)) : List Char :=
  '{' :: ([','].intercalate (fields.map field) ++ ['}'])

/-- The object with these fields. -/
def ofStrings (fields : List (String × String)) : Json :=
  .object (fields.map fun entry => (entry.1, .string entry.2))

def isPrintable (c : Char) : Bool := decide (32 ≤ c.toNat ∧ c.toNat < 127)

def isPlain (c : Char) : Bool := isPrintable c && decide (c ≠ '"' ∧ c ≠ '\\')

/-- Keys and values are plain. -/
def Plain (fields : List (String × String)) : Prop :=
  ∀ entry ∈ fields, (∀ c ∈ entry.1.toList, isPlain c = true) ∧
    ∀ c ∈ entry.2.toList, isPlain c = true

/-- A library that writes records of strings, as far as they are plain. -/
class Writer where
  toString : List (String × String) → List Char
  toString_plain : ∀ fields, Plain fields → toString fields = compact fields

/-- One that puts no escapes. -/
abbrev plainWriter : Writer := ⟨compact, fun _ _ => rfl⟩

variable {fields : List (String × String)} {c : Char}

theorem length_field (entry : String × String) :
    (field entry).length = entry.1.toList.length + entry.2.toList.length + 5 := by
  simp only [field, quoted, List.length_append, List.length_cons, List.length_nil]
  omega

theorem isPrintable_of_mem_field {entry : String × String}
    (hk : ∀ c ∈ entry.1.toList, isPlain c = true)
    (hv : ∀ c ∈ entry.2.toList, isPlain c = true) (h : c ∈ field entry) :
    isPrintable c = true := by
  have hp : ∀ c, isPlain c = true → isPrintable c = true := by
    intro c hc
    exact (Bool.and_eq_true_iff.mp hc).1
  simp only [field, quoted, List.mem_append, List.mem_cons, List.not_mem_nil, or_false] at h
  rcases h with (rfl | h | rfl) | rfl | rfl | h | rfl
  · decide
  · exact hp c (hk c h)
  · decide
  · decide
  · decide
  · exact hp c (hv c h)
  · decide

theorem mem_intercalate {α : Type} {x y : α} {ls : List (List α)}
    (h : y ∈ [x].intercalate ls) : y = x ∨ ∃ l ∈ ls, y ∈ l := by
  induction ls with
  | nil => cases h
  | cons l ls ih =>
    cases ls with
    | nil => exact .inr ⟨l, .head _, by simpa using h⟩
    | cons l' ls =>
      rw [List.intercalate_cons_cons, List.mem_append, List.mem_append] at h
      rcases h with (h | h) | h
      · exact .inr ⟨l, .head _, h⟩
      · exact .inl (List.mem_singleton.mp h)
      · refine (ih h).imp_right ?_
        rintro ⟨m, hm, hy⟩
        exact ⟨m, .tail _ hm, hy⟩

/-- The text of plain fields is printable, so it has no line break in it. -/
theorem isPrintable_of_mem_compact (hp : Plain fields) (h : c ∈ compact fields) :
    isPrintable c = true := by
  simp only [compact, List.mem_cons, List.mem_append, List.not_mem_nil, or_false] at h
  rcases h with rfl | h | rfl
  · decide
  · rcases mem_intercalate h with rfl | ⟨text, ht, hc⟩
    · decide
    · obtain ⟨entry, he, rfl⟩ := List.mem_map.mp ht
      exact isPrintable_of_mem_field (hp entry he).1 (hp entry he).2 hc
  · decide

end Runewarp.Json
