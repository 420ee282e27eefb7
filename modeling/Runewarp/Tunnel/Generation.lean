import Runewarp.Lib.Uuid
import Runewarp.Server.ManagedAdapter

/-!
# Server runtime generations on the wire

A generation is a UUIDv7.  `parse` takes its canonical text only: the library reads other
forms of a UUID too, so `parse` writes what was read again and compares.
-/

namespace Runewarp.Server.ServerRuntimeGeneration

/-- The version and the variant that `parse` asks for. -/
def isV7 (g : ServerRuntimeGeneration) : Bool :=
  Uuid.version g.uuid == 7 && Uuid.isRfc g.uuid

variable [Uuid.Library]

/-- `Display`. -/
def display (g : ServerRuntimeGeneration) : String :=
  String.ofList (Uuid.Library.hyphenated g.uuid)

/-- `ServerRuntimeGeneration::parse`. -/
def parse (value : String) : Option ServerRuntimeGeneration :=
  match Uuid.Library.tryParse value.toList with
  | none => none
  | some uuid =>
    let canonical := Uuid.Library.hyphenated uuid == value.toList
    if canonical && (⟨uuid⟩ : ServerRuntimeGeneration).isV7 then some ⟨uuid⟩ else none

variable {value : String} {g : ServerRuntimeGeneration}

theorem parse_eq_some : parse value = some g ↔ value = g.display ∧ g.isV7 = true := by
  unfold parse
  constructor
  · intro h
    split at h
    · cases h
    · next uuid hp =>
      dsimp only at h
      split at h
      · next hc =>
        cases h
        simp only [Bool.and_eq_true, beq_iff_eq] at hc
        refine ⟨?_, hc.2⟩
        rw [display, hc.1, String.ofList_toList]
      · cases h
  · rintro ⟨rfl, hv7⟩
    simp only [display, String.toList_ofList, Uuid.Library.tryParse_hyphenated]
    rw [if_pos]
    simp [hv7]

theorem toList_display (g : ServerRuntimeGeneration) :
    g.display.toList = Uuid.hyphenated g.uuid := by
  rw [display, String.toList_ofList, Uuid.Library.hyphenated_eq]

theorem parse_display (h : g.isV7 = true) : parse g.display = some g :=
  parse_eq_some.mpr ⟨rfl, h⟩

/-- The text `parse` takes: 36 characters in groups of lower-case digits, with the version
and the variant at their places. -/
structure Wire (cs : List Char) : Prop where
  canonical : Uuid.Canonical cs
  version : cs[14]? = some '7'
  variant : ∃ c ∈ ['8', '9', 'a', 'b'], cs[19]? = some c

theorem wire_iff : Wire value.toList ↔ ∃ g : ServerRuntimeGeneration,
    value = g.display ∧ g.isV7 = true := by
  have hs : ∀ n < 16, Nat.digitChar n = '7' ↔ n = 7 := by decide
  have hm : ∀ n < 16, Nat.digitChar n ∈ ['8', '9', 'a', 'b'] ↔ n / 4 = 2 := by decide
  have hva : ∀ n < 16, (∃ c ∈ ['8', '9', 'a', 'b'], Nat.digitChar n = c) ↔ n / 4 = 2 :=
    fun n hn => exists_eq_right'.trans (hm n hn)
  have ht : ∀ g : ServerRuntimeGeneration, (Uuid.hyphenated g.uuid)[14]? = some '7' ∧
      (∃ c ∈ ['8', '9', 'a', 'b'], (Uuid.hyphenated g.uuid)[19]? = some c) ↔ g.isV7 = true := by
    intro g
    obtain ⟨h14, h19⟩ := Uuid.getElem?_hyphenated g.uuid
    simp only [h14, h19, Option.some.injEq, isV7, Bool.and_eq_true, beq_iff_eq, Uuid.isRfc]
    rw [hs (Uuid.version g.uuid) (Nat.mod_lt _ (by decide)),
      hva _ (Nat.mod_lt _ (by decide))]
  constructor
  · rintro ⟨hc, hv, hvr⟩
    obtain ⟨u, hu⟩ := Uuid.canonical_iff.mp hc
    rw [hu] at hv hvr
    refine ⟨⟨u⟩, ?_, (ht ⟨u⟩).mp ⟨hv, hvr⟩⟩
    rw [display, Uuid.Library.hyphenated_eq, ← hu, String.ofList_toList]
  · rintro ⟨g, rfl, hv7⟩
    rw [toList_display]
    obtain ⟨hv, hvr⟩ := (ht g).mpr hv7
    exact ⟨Uuid.canonical_hyphenated g.uuid, hv, hvr⟩

end Runewarp.Server.ServerRuntimeGeneration
