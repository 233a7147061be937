/-
  SeerDIOBoard.Lib.Varint — numbers as groups of seven bits, the lowest first.

  A byte holds seven bits of the number and, on top, whether another byte follows.
  `groups w` is the number that the low bits of `w` write, whatever the top bits are;
  `Closed w` says that the top bits end `w` at its last byte and not before. Leading zero
  groups are not excluded: a number has many closed words.

  - `closed_or_open`: a stream starts with a closed word of at most `n` bytes, or all of
    its first `n` bytes go on.
  - `or_group`: a loop that ors a group into place above the ones it has adds it, up to
    what the width of its word cuts off.
-/

import Mathlib.Data.List.Basic
import Mathlib.Tactic.Ring

namespace Lib.Varint

/-! ## Bytes -/

theorem toNat_and_low (b : UInt8) : (b &&& 0x7F).toNat = b.toNat % 128 := by
  rw [UInt8.toNat_and]
  exact Nat.and_two_pow_sub_one_eq_mod b.toNat 7

theorem and_top_eq_zero (b : UInt8) : b &&& 0x80 = 0 ↔ b.toNat < 128 := by
  have htop : ∀ i : Fin 256, i.val &&& 128 = i.val / 128 * 128 := by decide +kernel
  have hb : (b &&& 0x80).toNat = b.toNat / 128 * 128 := by
    rw [UInt8.toNat_and]
    exact htop ⟨b.toNat, b.toNat_lt⟩
  rw [← UInt8.toNat_inj, hb]
  show b.toNat / 128 * 128 = 0 ↔ b.toNat < 128
  omega

/-! ## Words -/

def groups : List UInt8 → Nat
  | [] => 0
  | b :: w => b.toNat % 128 + 128 * groups w

def Closed : List UInt8 → Prop
  | [] => False
  | [b] => b.toNat < 128
  | b :: w => 128 ≤ b.toNat ∧ Closed w

theorem Closed.ne_nil {w : List UInt8} (h : Closed w) : w ≠ [] := by
  intro heq
  subst heq
  exact h

theorem closed_cons {b : UInt8} {w : List UInt8} (hw : w ≠ []) : Closed (b :: w) ↔ 128 ≤ b.toNat ∧ Closed w := by
  cases w with
  | nil => exact absurd rfl hw
  | cons x w => exact Iff.rfl

theorem Closed.tail {b : UInt8} {w : List UInt8} (h : Closed (b :: w)) (hb : 128 ≤ b.toNat) : Closed w := by
  cases w with
  | nil => exact absurd hb (Nat.not_le.mpr h)
  | cons x w => exact h.2

/-- A strict prefix of a closed word goes on at every byte. -/
theorem Closed.open_of_prefix {w p t : List UInt8} (h : Closed w) (hw : w = p ++ t) (ht : t ≠ []) :
    ∀ b, b ∈ p → 128 ≤ b.toNat := by
  induction p generalizing w with
  | nil => intro b hb; cases hb
  | cons x p ih =>
    subst hw
    have hne : p ++ t ≠ [] := by simp [ht]
    obtain ⟨hx, hrest⟩ := (closed_cons hne).mp h
    intro b hb
    rcases List.mem_cons.mp hb with rfl | hb
    · exact hx
    · exact ih hrest rfl b hb

theorem closed_or_open (n : Nat) (s : List UInt8) :
    (∃ w r, s = w ++ r ∧ Closed w ∧ w.length ≤ n) ∨ ∀ b, b ∈ s.take n → 128 ≤ b.toNat := by
  induction n generalizing s with
  | zero => exact Or.inr (by simp)
  | succ n ih =>
    cases s with
    | nil => exact Or.inr (by simp)
    | cons b s =>
      by_cases hb : b.toNat < 128
      · exact Or.inl ⟨[b], s, rfl, hb, by simp⟩
      · rcases ih s with ⟨w, r, rfl, hw, hlen⟩ | hopen
        · refine Or.inl ⟨b :: w, r, rfl, (closed_cons hw.ne_nil).mpr ⟨by omega, hw⟩, ?_⟩
          rw [List.length_cons]
          omega
        · refine Or.inr fun x hx => ?_
          rw [List.take_succ_cons] at hx
          rcases List.mem_cons.mp hx with rfl | hx
          · omega
          · exact hopen x hx

/-! ## Putting a group in its place -/

theorem mul_mod_two_pow (g : Nat) {s n : Nat} (h : s ≤ n) : 2 ^ s * g % 2 ^ n = 2 ^ s * (g % 2 ^ (n - s)) := by
  rw [← Nat.mul_mod_mul_left, ← Nat.pow_add, Nat.add_sub_cancel' h]

theorem or_group {acc s n : Nat} (hacc : acc < 2 ^ s) (h : s ≤ n) (g : Nat) :
    acc ||| (g <<< s % 2 ^ n) = (acc + 2 ^ s * g) % 2 ^ n := by
  have hdisj := Nat.two_pow_add_eq_or_of_lt hacc (g % 2 ^ (n - s))
  have hlow : acc % 2 ^ n = acc := Nat.mod_eq_of_lt (Nat.lt_of_lt_of_le hacc (Nat.pow_le_pow_right (by decide) h))
  have hroom : acc + 2 ^ s * (g % 2 ^ (n - s)) < 2 ^ n := by
    have hg := Nat.mod_lt g (Nat.two_pow_pos (n - s))
    calc acc + 2 ^ s * (g % 2 ^ (n - s)) < 2 ^ s + 2 ^ s * (g % 2 ^ (n - s)) := Nat.add_lt_add_right hacc _
      _ = 2 ^ s * (g % 2 ^ (n - s) + 1) := by ring
      _ ≤ 2 ^ s * 2 ^ (n - s) := Nat.mul_le_mul_left _ hg
      _ = 2 ^ n := by rw [← Nat.pow_add, Nat.add_sub_cancel' h]
  calc acc ||| (g <<< s % 2 ^ n) = acc ||| 2 ^ s * (g % 2 ^ (n - s)) := by
        rw [Nat.shiftLeft_eq, Nat.mul_comm g, mul_mod_two_pow g h]
    _ = acc + 2 ^ s * (g % 2 ^ (n - s)) := by rw [Nat.or_comm, ← hdisj, Nat.add_comm]
    _ = (acc + 2 ^ s * g) % 2 ^ n := by
        rw [Nat.add_mod, hlow, mul_mod_two_pow g h, Nat.mod_eq_of_lt hroom]

end Lib.Varint
