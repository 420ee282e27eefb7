import Mathlib.Data.List.Basic

/-!
# Graceful durations

The text of a graceful duration is a quantity and a unit.  What is accepted goes to two
consumers: the Client adds it to the moment shutdown began, with an addition that panics
when the sum cannot be represented, and the Server sleeps for it, where a moment that
cannot be represented stands for one far away.

Minutes and hours are counted in seconds with a saturating multiplication, so a large
quantity is accepted and changed.  `graceful_durations` says exactly which quantities
are kept and which durations give the Client a deadline.
-/

namespace Runewarp

/-- `std::time::Duration`. -/
structure Duration where
  secs : UInt64
  nanos : Nat
  nanos_lt : nanos < 1000000000
deriving DecidableEq

namespace Duration

def fromMillis (q : UInt64) : Duration where
  secs := UInt64.ofNat (q.toNat / 1000)
  nanos := q.toNat % 1000 * 1000000
  nanos_lt := by omega

def fromSecs (q : UInt64) : Duration := ⟨q, 0, by decide⟩

def toNanos (d : Duration) : Nat := d.secs.toNat * 1000000000 + d.nanos

end Duration

/-- `saturating_mul`. -/
def saturatingMul (a b : UInt64) : UInt64 :=
  if a.toNat * b.toNat < UInt64.size then a * b else UInt64.ofNat (UInt64.size - 1)

/-- The number that digits stand for. -/
def decimal (ds : List Char) : Nat := ds.foldl (fun n c => n * 10 + (c.toNat - 48)) 0

/-- `parse::<u64>`, which takes a plus sign before the digits. -/
def parseU64 (cs : List Char) : Option UInt64 :=
  let ds := if cs.head? = some '+' then cs.tail else cs
  if ds = [] ∨ ds.all Char.isDigit = false then none
  else if decimal ds < UInt64.size then some (UInt64.ofNat (decimal ds))
  else none

inductive DurationUnit where
  | ms
  | s
  | m
  | h
deriving DecidableEq

namespace DurationUnit

def text : DurationUnit → String
  | .ms => "ms"
  | .s => "s"
  | .m => "m"
  | .h => "h"

def nanos : DurationUnit → Nat
  | .ms => 1000000
  | .s => 1000000000
  | .m => 60 * 1000000000
  | .h => 60 * 60 * 1000000000

/-- The value of a quantity, by the arms of the last `match`. -/
def duration (q : UInt64) : DurationUnit → Duration
  | .ms => .fromMillis q
  | .s => .fromSecs q
  | .m => .fromSecs (saturatingMul q 60)
  | .h => .fromSecs (saturatingMul q (60 * 60))

end DurationUnit

/-- The calls of `strip_suffix`. -/
def splitUnit (cs : List Char) : Option (List Char × DurationUnit) :=
  ((cs.dropSuffix? ['m', 's']).map (·, .ms)).or <|
    ((cs.dropSuffix? ['s']).map (·, .s)).or <|
      ((cs.dropSuffix? ['m']).map (·, .m)).or <| (cs.dropSuffix? ['h']).map (·, .h)

def parseDuration (value : String) : Except String Duration :=
  match splitUnit value.toList with
  | none =>
    .error "expected a non-negative duration like \"60s\", \"5m\", \"1h\", or \"250ms\""
  | some (numeric, unit) =>
    match parseU64 numeric with
    | none => .error ("expected a non-negative integer before `" ++ unit.text ++ "`")
    | some q => .ok (unit.duration q)

/-! ## Moments -/

/-- `std::time::Instant`: seconds in a signed word. -/
structure Instant where
  secs : Int
  nanos : Nat
  secs_lt : secs < 9223372036854775808
  nanos_lt : nanos < 1000000000
deriving DecidableEq

namespace Instant

def toNanos (t : Instant) : Int := t.secs * 1000000000 + t.nanos

/-- `checked_add`. -/
def checkedAdd (t : Instant) (d : Duration) : Option Instant :=
  if h : t.secs + d.secs.toNat < 9223372036854775808 then
    if hn : t.nanos + d.nanos < 1000000000 then some ⟨_, _, h, hn⟩
    else if hs : t.secs + d.secs.toNat + 1 < 9223372036854775808 then
      some ⟨_, t.nanos + d.nanos - 1000000000, hs, by
        have := t.nanos_lt
        have := d.nanos_lt
        omega⟩
    else none
  else none

end Instant

/-- What becomes of a deadline. -/
inductive Deadline where
  | reached (t : Instant)
  | farFuture
  | panics

/-- `graceful_deadline` of a shutdown that began: `Instant + Duration`. -/
def clientDeadline (startedAt : Instant) (d : Duration) : Deadline :=
  match startedAt.checkedAdd d with
  | some t => .reached t
  | none => .panics

/-- `tokio::time::sleep` in the Server, and `timeout` in `ServerTunnel::shutdown`. -/
def serverDeadline (now : Instant) (d : Duration) : Deadline :=
  match now.checkedAdd d with
  | some t => .reached t
  | none => .farFuture

/-! ## What is written and what is kept -/

theorem splitUnit_eq_some {cs numeric : List Char} {unit : DurationUnit}
    (h : splitUnit cs = some (numeric, unit)) : cs = numeric ++ unit.text.toList := by
  simp only [splitUnit, Option.or_eq_some_iff, Option.map_eq_some_iff, Prod.mk.injEq,
    List.dropSuffix?_eq_some_iff, beq_iff_eq] at h
  obtain ⟨_, ⟨_, rfl, rfl⟩, rfl, rfl⟩ | ⟨-, ⟨_, ⟨_, rfl, rfl⟩, rfl, rfl⟩ |
    ⟨-, ⟨_, ⟨_, rfl, rfl⟩, rfl, rfl⟩ | ⟨-, _, ⟨_, rfl, rfl⟩, rfl, rfl⟩⟩⟩ := h
  all_goals rfl

theorem toNanos_saturatingMul {q k : UInt64}
    (h : q.toNat * (k.toNat * 1000000000) < UInt64.size * 1000000000) :
    (Duration.fromSecs (saturatingMul q k)).toNanos = q.toNat * (k.toNat * 1000000000) := by
  rw [← Nat.mul_assoc] at h ⊢
  have hlt : q.toNat * k.toNat < UInt64.size := Nat.lt_of_mul_lt_mul_right h
  rw [saturatingMul, if_pos hlt, Duration.fromSecs, Duration.toNanos, UInt64.toNat_mul,
    Nat.mod_eq_of_lt hlt, Nat.add_zero]

theorem toNanos_duration {q : UInt64} {unit : DurationUnit}
    (h : q.toNat * unit.nanos < UInt64.size * 1000000000) :
    (unit.duration q).toNanos = q.toNat * unit.nanos := by
  cases unit with
  | ms =>
    have hq : q.toNat < UInt64.size := q.toNat_lt_size
    have hd : (UInt64.ofNat (q.toNat / 1000)).toNat = q.toNat / 1000 :=
      UInt64.toNat_ofNat_of_lt' (Nat.lt_of_le_of_lt (Nat.div_le_self _ _) hq)
    have hn : (q.toNat / 1000) * 1000000000 + q.toNat % 1000 * 1000000 = q.toNat * 1000000 := by
      omega
    exact (congrArg (· * 1000000000 + _) hd).trans hn
  | s => exact Nat.add_zero _
  | m => exact toNanos_saturatingMul (k := 60) h
  | h => exact toNanos_saturatingMul (k := 60 * 60) h

theorem Duration.toNanos_lt (d : Duration) : d.toNanos < UInt64.size * 1000000000 := by
  have hs := d.secs.toNat_lt_size
  have hn := d.nanos_lt
  unfold Duration.toNanos
  omega

/-- Nothing is lost in an addition that does not panic. -/
theorem toNanos_checkedAdd {t u : Instant} {d : Duration} (h : t.checkedAdd d = some u) :
    u.toNanos = t.toNanos + d.toNanos := by
  unfold Instant.checkedAdd at h
  split at h
  · split at h
    · cases h
      simp only [Instant.toNanos, Duration.toNanos]
      omega
    · split at h
      · cases h
        simp only [Instant.toNanos, Duration.toNanos]
        omega
      · cases h
  · cases h

theorem checkedAdd_eq_none {t : Instant} {d : Duration} :
    t.checkedAdd d = none ↔
      9223372036854775808 * 1000000000 ≤ t.toNanos + d.toNanos := by
  have ht := t.nanos_lt
  have hd := d.nanos_lt
  unfold Instant.checkedAdd
  simp only [Instant.toNanos, Duration.toNanos]
  split
  · split
    · simp only [reduceCtorEq, false_iff]
      omega
    · split
      · simp only [reduceCtorEq, false_iff]
        omega
      · simp only [true_iff]
        omega
  · simp only [true_iff]
    omega

/-- What is accepted is a quantity and a unit.  The quantity is kept exactly if it fits a
duration.  The Server has a deadline for every duration, and the Client exactly for those
that end at a moment there is. -/
theorem graceful_durations {value : String} {d : Duration} (h : parseDuration value = .ok d) :
    ∃ (numeric : List Char) (unit : DurationUnit) (q : UInt64),
      value.toList = numeric ++ unit.text.toList ∧ parseU64 numeric = some q ∧
      (q.toNat * unit.nanos < UInt64.size * 1000000000 ↔ d.toNanos = q.toNat * unit.nanos) ∧
      ∀ start : Instant,
        serverDeadline start d ≠ .panics ∧
        (start.toNanos + d.toNanos < 9223372036854775808 * 1000000000 ↔
          ∃ t, clientDeadline start d = .reached t ∧
            t.toNanos = start.toNanos + d.toNanos) := by
  unfold parseDuration at h
  split at h
  · cases h
  · next numeric unit hu =>
    split at h
    · cases h
    · next q hq =>
      cases h
      refine ⟨numeric, unit, q, splitUnit_eq_some hu, hq, ⟨toNanos_duration, fun he => ?_⟩,
        fun start => ⟨?_, fun hlt => ?_, fun ⟨t, ht, _⟩ => Int.not_le.mp fun hle => ?_⟩⟩
      · exact he ▸ Duration.toNanos_lt _
      · unfold serverDeadline
        split <;> simp
      · obtain ⟨t, ht⟩ : ∃ t, start.checkedAdd (unit.duration q) = some t := by
          refine Option.ne_none_iff_exists'.mp fun hn => ?_
          have hle := checkedAdd_eq_none.mp hn
          omega
        exact ⟨t, by rw [clientDeadline, ht], toNanos_checkedAdd ht⟩
      · rw [clientDeadline, checkedAdd_eq_none.mpr hle] at ht
        cases ht

theorem graceful_durations_minutes :
    ∃ d, parseDuration "5m" = .ok d ∧ d.toNanos = 300 * 1000000000 ∧
      ∃ t, clientDeadline ⟨7, 0, by decide, by decide⟩ d = .reached t ∧
        t.toNanos = 307 * 1000000000 := by
  have hp : parseDuration "5m" = .ok (.fromSecs 300) := by decide
  obtain ⟨_, _, _, _, _, -, hd⟩ := graceful_durations hp
  obtain ⟨t, ht, hn⟩ := (hd ⟨7, 0, by decide, by decide⟩).2.mp (by decide)
  exact ⟨_, hp, by decide, t, ht, hn⟩

/-- A quantity of hours that does not fit is accepted and changed, and one of seconds is
accepted for which no moment after boot gives the Client a deadline. -/
theorem graceful_duration_changed_or_panics :
    parseDuration "18446744073709551615h" = .ok (.fromSecs 18446744073709551615) ∧
      (Duration.fromSecs 18446744073709551615).toNanos ≠
        18446744073709551615 * DurationUnit.h.nanos ∧
      ∃ d, parseDuration "18446744073709551615s" = .ok d ∧
        ∀ start : Instant, 0 ≤ start.secs → clientDeadline start d = .panics := by
  refine ⟨by decide, by decide, .fromSecs 18446744073709551615, by decide, fun start hs => ?_⟩
  have hn : start.checkedAdd (.fromSecs 18446744073709551615) = none := by
    refine checkedAdd_eq_none.mpr ?_
    have hd : (Duration.fromSecs 18446744073709551615).toNanos =
        18446744073709551615 * 1000000000 := by decide
    rw [hd, Instant.toNanos]
    omega
  rw [clientDeadline, hn]

end Runewarp
