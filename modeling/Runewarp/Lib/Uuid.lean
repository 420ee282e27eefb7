import Runewarp.Lib.Hex

/-!
# UUIDs and their texts

A UUID is 128 bits.  It is written in groups of 8, 4, 4, 4 and 12 hexadecimal digits with
hyphens between them.  `canonical_iff` says which texts are the lower-case form of a UUID.
A `Library` writes this form and reads it back, and may read others.
-/

namespace Runewarp.Uuid

open Hex

/-- Five groups with hyphens between them. -/
def join (a b c d e : List Char) : List Char :=
  a ++ '-' :: (b ++ '-' :: (c ++ '-' :: (d ++ '-' :: e)))

/-- Hyphens put into 32 digits. -/
def hyphenate (cs : List Char) : List Char :=
  join (cs.take 8) ((cs.drop 8).take 4) ((cs.drop 12).take 4) ((cs.drop 16).take 4) (cs.drop 20)

/-- The text in lower case. -/
def hyphenated (u : BitVec 128) : List Char := hyphenate (text 32 u.toNat)

/-- The digits of a text with hyphens at their places. -/
def unhyphenate (cs : List Char) : Option (List Char) :=
  if cs.length = 36 ∧ cs[8]? = some '-' ∧ cs[13]? = some '-' ∧ cs[18]? = some '-' ∧
      cs[23]? = some '-' then
    some (cs.take 8 ++ (cs.drop 9).take 4 ++ (cs.drop 14).take 4 ++ (cs.drop 19).take 4 ++
      cs.drop 24)
  else none

def parseHyphenated (cs : List Char) : Option (BitVec 128) :=
  (unhyphenate cs).bind fun cs =>
    (cs.mapM digitValue).map fun ds => BitVec.ofNat 128 (ofDigits ds)

/-- The number of the version. -/
def version (u : BitVec 128) : ℕ := u.toNat / 16 ^ 19 % 16

/-- Whether the variant is that of the RFC. -/
def isRfc (u : BitVec 128) : Bool := u.toNat / 16 ^ 15 % 16 / 4 == 2

/-- The lower-case digits of a UUID in groups. -/
structure Canonical (cs : List Char) : Prop where
  groups : ∃ a b c d e, cs = join a b c d e ∧
    a.length = 8 ∧ b.length = 4 ∧ c.length = 4 ∧ d.length = 4 ∧ e.length = 12 ∧
    ∀ x ∈ a ++ b ++ c ++ d ++ e, isLower x = true

variable {a b c d e cs : List Char}

theorem hyphenate_append (ha : a.length = 8) (hb : b.length = 4) (hc : c.length = 4)
    (hd : d.length = 4) : hyphenate (a ++ b ++ c ++ d ++ e) = join a b c d e := by
  simp (disch := omega) [hyphenate, List.drop_append, List.drop_eq_nil_of_le, ha, hb, hc]

theorem exists_groups (h : cs.length = 32) : ∃ a b c d e, cs = a ++ b ++ c ++ d ++ e ∧
    a.length = 8 ∧ b.length = 4 ∧ c.length = 4 ∧ d.length = 4 ∧ e.length = 12 := by
  refine ⟨cs.take 8, (cs.drop 8).take 4, (cs.drop 12).take 4, (cs.drop 16).take 4, cs.drop 20,
    ?_, ?_, ?_, ?_, ?_, ?_⟩
  · have hd : ∀ n, (cs.drop n).take 4 ++ cs.drop (n + 4) = cs.drop n := by
      intro n
      rw [← List.drop_drop, List.take_append_drop]
    simp only [List.append_assoc, hd 16, hd 12, hd 8, List.take_append_drop]
  all_goals simp [h]

theorem canonical_hyphenated (u : BitVec 128) : Canonical (hyphenated u) := by
  obtain ⟨a, b, c, d, e, ht, ha, hb, hc, hd, he⟩ := exists_groups (length_text 32 u.toNat)
  refine ⟨a, b, c, d, e, ?_, ha, hb, hc, hd, he, fun x hx => ?_⟩
  · rw [hyphenated, ht, hyphenate_append ha hb hc hd]
  · rw [← ht] at hx
    exact isLower_of_mem_text hx

/-- The canonical texts are the lower-case forms of UUIDs. -/
theorem canonical_iff : Canonical cs ↔ ∃ u, cs = hyphenated u := by
  constructor
  · rintro ⟨a, b, c, d, e, rfl, ha, hb, hc, hd, he, hl⟩
    obtain ⟨n, hn, ht⟩ := exists_text hl
    have hle : (a ++ b ++ c ++ d ++ e).length = 32 := by simp [ha, hb, hc, hd, he]
    rw [hle] at hn ht
    refine ⟨BitVec.ofNat 128 n, ?_⟩
    have hlt : n < 2 ^ 128 := hn
    rw [hyphenated, BitVec.toNat_ofNat, Nat.mod_eq_of_lt hlt, ← ht,
      hyphenate_append ha hb hc hd]
  · rintro ⟨u, rfl⟩
    exact canonical_hyphenated u

theorem length_hyphenated (u : BitVec 128) : (hyphenated u).length = 36 := by
  obtain ⟨a, b, c, d, e, heq, ha, hb, hc, hd, he, -⟩ := (canonical_hyphenated u).groups
  rw [heq]
  simp [join, ha, hb, hc, hd, he]

theorem mem_hyphenated {u : BitVec 128} {x : Char} (h : x ∈ hyphenated u) :
    x = '-' ∨ isLower x = true := by
  obtain ⟨a, b, c, d, e, heq, -, -, -, -, -, hl⟩ := (canonical_hyphenated u).groups
  rw [heq] at h
  simp only [join, List.mem_append, List.mem_cons] at h hl
  grind

theorem parseHyphenated_hyphenated (u : BitVec 128) : parseHyphenated (hyphenated u) = some u := by
  have hp : parseHyphenated (hyphenated u) =
      ((text 32 u.toNat).mapM digitValue).map fun ds => BitVec.ofNat 128 (ofDigits ds) := rfl
  rw [hp, mapM_text, Option.map_some, ofDigits_digits u.isLt, BitVec.ofNat_toNat,
    BitVec.setWidth_eq]

/-- How a library writes and reads UUIDs. -/
class Library where
  hyphenated : BitVec 128 → List Char
  tryParse : List Char → Option (BitVec 128)
  hyphenated_eq : ∀ u, hyphenated u = Uuid.hyphenated u
  tryParse_hyphenated : ∀ u, tryParse (hyphenated u) = some u

/-- One that reads no other form. -/
abbrev plainLibrary : Library :=
  ⟨hyphenated, parseHyphenated, fun _ => rfl, parseHyphenated_hyphenated⟩

/-- The version and the variant are at their places in the text. -/
theorem getElem?_hyphenated (u : BitVec 128) :
    (hyphenated u)[14]? = some (Nat.digitChar (version u)) ∧
      (hyphenated u)[19]? = some (Nat.digitChar (u.toNat / 16 ^ 15 % 16)) := by
  have hg : ∀ i < 32, (text 32 u.toNat)[i]? = _ := fun i hi => getElem?_text u.toNat hi
  constructor
  · have h12 := hg 12 (by decide)
    simpa [hyphenated, hyphenate, join, version, List.getElem?_append, List.getElem?_take]
      using h12
  · have h16 := hg 16 (by decide)
    simpa [hyphenated, hyphenate, join, List.getElem?_append, List.getElem?_take] using h16

end Runewarp.Uuid
