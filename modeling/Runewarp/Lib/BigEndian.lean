import Mathlib.Tactic.Ring

/-!
# Big-endian numbers

Naturals as a fixed number of bytes, most significant first.
-/

namespace BigEndian

/-- The `w` bytes of `n`; what does not fit is dropped. -/
def toBytes : Nat → Nat → List UInt8
  | 0, _ => []
  | w + 1, n => toBytes w (n / 256) ++ [UInt8.ofNat n]

/-- The natural with the given bytes. -/
def ofBytes (bytes : List UInt8) : Nat := bytes.foldl (fun n b => n * 256 + b.toNat) 0

@[simp] theorem length_toBytes (w n : Nat) : (toBytes w n).length = w := by
  induction w generalizing n with
  | zero => rfl
  | succ w ih => simp [toBytes, ih]

theorem ofBytes_append_singleton (bytes : List UInt8) (b : UInt8) :
    ofBytes (bytes ++ [b]) = ofBytes bytes * 256 + b.toNat := by
  simp [ofBytes]

theorem ofBytes_toBytes {w n : Nat} (h : n < 256 ^ w) : ofBytes (toBytes w n) = n := by
  induction w generalizing n with
  | zero =>
    obtain rfl : n = 0 := Nat.lt_one_iff.mp h
    rfl
  | succ w ih =>
    have hd : n / 256 < 256 ^ w := by
      rw [Nat.div_lt_iff_lt_mul (by decide), ← pow_succ]
      exact h
    rw [toBytes, ofBytes_append_singleton, ih hd, UInt8.toNat_ofNat']
    exact Nat.div_add_mod' n 256

theorem ofNat_ofBytes_toBytes {w k : Nat} (hk : 2 ^ k = 256 ^ w) (x : BitVec k) :
    BitVec.ofNat k (ofBytes (toBytes w x.toNat)) = x := by
  rw [ofBytes_toBytes (hk ▸ x.isLt), BitVec.ofNat_toNat, BitVec.setWidth_eq]

end BigEndian
