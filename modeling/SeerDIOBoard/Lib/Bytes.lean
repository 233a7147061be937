/-
  SeerDIOBoard.Lib.Bytes — numbers as sequences of bytes.

  `bigEndian` is the number a list of bytes writes, the highest byte first, and
  `littleEndian` the one it writes with the lowest byte first. The loops that read a number
  out shift a fixed-width accumulator and add a byte: `bigEndian64` is such a loop over 64
  bits, and `toNat_bigEndian64` says it computes that number. `leBytes n v` are the low `n`
  bytes of `v` in two's complement, and `littleEndian_leBytes` reads them back. `byteSum`
  is the sum of an additive checksum, which one changed byte always changes.
-/

import Mathlib.Algebra.Group.Nat.Defs
import Mathlib.Data.List.Induction
import Mathlib.Tactic.Ring

namespace Lib.Bytes

/-! ## The highest byte first -/

def bigEndian (l : List UInt8) : Nat := l.foldl (fun t b => t * 2 ^ 8 + b.toNat) 0

theorem bigEndian_foldl (l : List UInt8) (t : Nat) :
    l.foldl (fun t b => t * 2 ^ 8 + b.toNat) t = t * 2 ^ (8 * l.length) + bigEndian l := by
  unfold bigEndian
  induction l generalizing t with
  | nil => simp
  | cons b l ih =>
    rw [List.foldl_cons, List.foldl_cons, ih, ih (0 * 2 ^ 8 + b.toNat), List.length_cons, Nat.mul_succ, Nat.pow_add]
    ring

theorem bigEndian_append (l m : List UInt8) :
    bigEndian (l ++ m) = bigEndian l * 2 ^ (8 * m.length) + bigEndian m := by
  rw [bigEndian, List.foldl_append, bigEndian_foldl]
  rfl

theorem bigEndian_lt (l : List UInt8) : bigEndian l < 2 ^ (8 * l.length) := by
  induction l using List.reverseRecOn with
  | nil => decide
  | append_singleton l b ih =>
    have hb := b.toNat_lt
    have hlen : 2 ^ (8 * (l ++ [b]).length) = 2 ^ (8 * l.length) * 2 ^ 8 := by
      rw [List.length_append, List.length_singleton, Nat.mul_succ, Nat.pow_add]
    rw [bigEndian_append, hlen]
    show bigEndian l * 2 ^ 8 + bigEndian [b] < _
    have hone : bigEndian [b] = b.toNat := by simp [bigEndian]
    omega

/-- `t <<= 8; t += b` for every byte. -/
def bigEndian64 (l : List UInt8) : UInt64 := l.foldl (fun t b => (t <<< 8) + b.toUInt64) 0

theorem toNat_bigEndian64 {l : List UInt8} (h : l.length ≤ 8) : (bigEndian64 l).toNat = bigEndian l := by
  unfold bigEndian64
  induction l using List.reverseRecOn with
  | nil => rfl
  | append_singleton l b ih =>
    rw [List.length_append, List.length_singleton] at h
    have hlt : bigEndian l < 2 ^ 56 := by
      refine Nat.lt_of_lt_of_le (bigEndian_lt l) (Nat.pow_le_pow_right (by decide) ?_)
      omega
    have hb := b.toNat_lt
    rw [List.foldl_append, List.foldl_cons, List.foldl_nil, bigEndian_append, UInt64.toNat_add, UInt64.toNat_shiftLeft,
      ih (by omega), Nat.shiftLeft_eq]
    have hone : bigEndian [b] = b.toNat := by simp [bigEndian]
    rw [hone, UInt8.toNat_toUInt64]
    show (bigEndian l * 2 ^ 8 % 2 ^ 64 + b.toNat) % 2 ^ 64 = bigEndian l * 2 ^ 8 + b.toNat
    omega

/-! ## The lowest byte first -/

def littleEndian : List UInt8 → Nat
  | [] => 0
  | b :: l => b.toNat + 2 ^ 8 * littleEndian l

/-- `v & 0xFF; v >>= 8`, `n` times. -/
def leBytes : Nat → Int → List UInt8
  | 0, _ => []
  | n + 1, v => UInt8.ofNat (v % 2 ^ 8).toNat :: leBytes n (v / 2 ^ 8)

theorem emod_byte_mul (v : Int) {m : Int} (hm : 0 < m) : v % (2 ^ 8 * m) = v % 2 ^ 8 + 2 ^ 8 * (v / 2 ^ 8 % m) := by
  have hlo := Int.emod_nonneg (v / 2 ^ 8) (Int.ne_of_gt hm)
  have hhi := Int.emod_lt_of_pos (v / 2 ^ 8) hm
  have hsplit : v = (v % 2 ^ 8 + 2 ^ 8 * (v / 2 ^ 8 % m)) + (2 ^ 8 * m) * (v / 2 ^ 8 / m) := by
    have hq := Int.mul_ediv_add_emod (v / 2 ^ 8) m
    rw [Int.mul_assoc]
    omega
  generalize v / 2 ^ 8 % m = r at *
  calc v % (2 ^ 8 * m) = ((v % 2 ^ 8 + 2 ^ 8 * r) + (2 ^ 8 * m) * (v / 2 ^ 8 / m)) % (2 ^ 8 * m) := by rw [← hsplit]
    _ = (v % 2 ^ 8 + 2 ^ 8 * r) % (2 ^ 8 * m) := Int.add_mul_emod_self_left _ _ _
    _ = v % 2 ^ 8 + 2 ^ 8 * r := Int.emod_eq_of_lt (by omega) (by omega)

/-- Written and read back: the low bits are kept. -/
theorem littleEndian_leBytes (n : Nat) (v : Int) : (littleEndian (leBytes n v) : Int) = v % 2 ^ (8 * n) := by
  induction n generalizing v with
  | zero => simp [leBytes, littleEndian]
  | succ n ih =>
    have hb : ((UInt8.ofNat (v % 2 ^ 8).toNat).toNat : Int) = v % 2 ^ 8 := by
      rw [UInt8.toNat_ofNat']
      omega
    have hpow : (2 : Int) ^ (8 * (n + 1)) = 2 ^ 8 * 2 ^ (8 * n) := by rw [Nat.mul_succ, Int.pow_add, Int.mul_comm]
    rw [leBytes, littleEndian, Int.natCast_add, Int.natCast_mul, ih, hb, hpow, emod_byte_mul v (Int.pow_pos (by decide))]
    rfl

/-! ## Sums -/

/-- The sum of the bytes, as an additive checksum has it before it is cut to a byte. -/
def byteSum (l : List UInt8) : Nat := (l.map UInt8.toNat).sum

theorem byteSum_set (l : List UInt8) (x : UInt8) :
    ∀ i : Nat, i < l.length → byteSum (l.set i x) + (l.getD i 0).toNat = byteSum l + x.toNat := by
  unfold byteSum
  induction l with
  | nil => intro i hi; exact absurd hi (Nat.not_lt_zero i)
  | cons y l ih =>
    intro i hi
    cases i with
    | zero =>
      simp only [List.set_cons_zero, List.map_cons, List.sum_cons, List.getD_cons_zero]
      omega
    | succ i =>
      have hrest := ih i (Nat.lt_of_succ_lt_succ hi)
      simp only [List.set_cons_succ, List.map_cons, List.sum_cons, List.getD_cons_succ]
      omega

/-- One changed byte always shows in the sum. -/
theorem byteSum_set_mod {l : List UInt8} {i : Nat} {x : UInt8} (hi : i < l.length) (hx : x ≠ l.getD i 0) :
    byteSum (l.set i x) % 256 ≠ byteSum l % 256 := by
  have hsum := byteSum_set l x i hi
  have hold := (l.getD i 0).toNat_lt
  have hnew := x.toNat_lt
  have hne : x.toNat ≠ (l.getD i 0).toNat := fun h => hx (UInt8.toNat_inj.mp h)
  omega

end Lib.Bytes
