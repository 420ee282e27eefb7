import Mathlib.Data.List.Basic

/-!
# UTF-8

The well-formed byte sequences, as a machine that reads one byte at a time.  Between two
characters it stands at `start`; inside one it owes a number of continuation bytes, and
knows the range of the next of them.  The range of the second byte leaves out what is
longer than it need be, the surrogates, and what is above U+10FFFF.
-/

namespace Utf8

inductive State where
  | start
  /-- So many more bytes after the next one, which lies in this range. -/
  | owes (more : Nat) (low high : UInt8)
deriving DecidableEq

/-- The first byte of a character. -/
def first (b : UInt8) : Option State :=
  if b ≤ 0x7f then some .start
  else if 0xc2 ≤ b ∧ b ≤ 0xdf then some (.owes 0 0x80 0xbf)
  else if b = 0xe0 then some (.owes 1 0xa0 0xbf)
  else if b = 0xed then some (.owes 1 0x80 0x9f)
  else if 0xe1 ≤ b ∧ b ≤ 0xef then some (.owes 1 0x80 0xbf)
  else if b = 0xf0 then some (.owes 2 0x90 0xbf)
  else if 0xf1 ≤ b ∧ b ≤ 0xf3 then some (.owes 2 0x80 0xbf)
  else if b = 0xf4 then some (.owes 2 0x80 0x8f)
  else none

def next : State → UInt8 → Option State
  | .start, b => first b
  | .owes 0 low hi, b => if low ≤ b ∧ b ≤ hi then some .start else none
  | .owes (more + 1) low hi, b =>
    if low ≤ b ∧ b ≤ hi then some (.owes more 0x80 0xbf) else none

/-- The state after some bytes. -/
def run : State → List UInt8 → Option State
  | s, [] => some s
  | s, b :: bs => (next s b).bind fun s => run s bs

/-- `std::str::from_utf8` succeeds. -/
def valid (bytes : List UInt8) : Bool := decide (run .start bytes = some .start)

theorem run_ascii {bytes : List UInt8} (h : ∀ b ∈ bytes, b ≤ 0x7f) :
    run .start bytes = some .start := by
  induction bytes with
  | nil => rfl
  | cons b bytes ih =>
    have hb : next .start b = some .start := if_pos (h b (.head _))
    rw [run, hb]
    exact ih fun b hb => h b (.tail _ hb)

theorem valid_ascii {bytes : List UInt8} (h : ∀ b ∈ bytes, b ≤ 0x7f) : valid bytes = true :=
  decide_eq_true (run_ascii h)

end Utf8
