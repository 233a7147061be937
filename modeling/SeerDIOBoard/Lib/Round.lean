/-
  Lib.Round — numbers cut or rounded to integers.

  `trunc` cuts the fraction off, as the conversion of a float to an integer type does. Half
  a unit added away from zero beforehand (`nudge`) makes it rounding to the nearest integer
  (`halfAway`): symmetric in sign, and off by at most a half.
-/

import Mathlib.Algebra.Order.Floor.Ring
import Mathlib.Tactic.Linarith
import Mathlib.Tactic.Ring

namespace Lib.Round

variable {K : Type*} [Field K] [LinearOrder K] [IsStrictOrderedRing K] [FloorRing K]

/-! ## Toward zero -/

def trunc (q : K) : Int := if q < 0 then ⌈q⌉ else ⌊q⌋

theorem trunc_neg (q : K) : trunc (-q) = -trunc q := by
  unfold trunc
  rcases lt_trichotomy q 0 with h | rfl | h
  · rw [if_pos h, if_neg (by linarith), Int.floor_neg]
  · simp
  · rw [if_pos (by linarith), if_neg (by linarith), Int.ceil_neg]

theorem abs_trunc_le (q : K) : |(trunc q : K)| ≤ |q| := by
  unfold trunc
  split
  case isTrue h =>
    have hc : ((⌈q⌉ : Int) : K) ≤ 0 := by exact_mod_cast Int.ceil_le.mpr (by simpa using h.le)
    have hq := Int.le_ceil q
    rw [abs_of_nonpos hc, abs_of_neg h]
    linarith
  case isFalse h =>
    have hf : (0 : K) ≤ ((⌊q⌋ : Int) : K) := by exact_mod_cast Int.floor_nonneg.mpr (not_lt.mp h)
    have hq := Int.floor_le q
    rw [abs_of_nonneg hf, abs_of_nonneg (not_lt.mp h)]
    exact hq

/-! ## To the nearest -/

def nudge (q : K) : K := if q < 0 then q - 1 / 2 else if 0 < q then q + 1 / 2 else 0

def halfAway (q : K) : Int := trunc (nudge q)

theorem nudge_neg (q : K) : nudge (-q) = -nudge q := by
  unfold nudge
  rcases lt_trichotomy q 0 with h | rfl | h
  · rw [if_neg (by linarith), if_pos (by linarith), if_pos h]
    linarith
  · simp
  · rw [if_pos (by linarith), if_neg (by linarith), if_pos h]
    linarith

theorem abs_nudge_le (q : K) : |nudge q| ≤ |q| + 1 / 2 := by
  unfold nudge
  rcases lt_trichotomy q 0 with h | rfl | h
  · rw [if_pos h, abs_of_neg h, abs_of_neg (by linarith)]
    linarith
  · simp
  · rw [if_neg (by linarith), if_pos h, abs_of_pos h, abs_of_pos (by linarith)]

theorem halfAway_neg (q : K) : halfAway (-q) = -halfAway q := by rw [halfAway, nudge_neg, trunc_neg, halfAway]

theorem abs_halfAway_le (q : K) : |(halfAway q : K)| ≤ |q| + 1 / 2 := (abs_trunc_le _).trans (abs_nudge_le q)

theorem halfAway_of_pos {q : K} (h : 0 < q) : halfAway q = ⌊q + 1 / 2⌋ := by
  have hn : nudge q = q + 1 / 2 := by rw [nudge, if_neg (by linarith), if_pos h]
  rw [halfAway, hn, trunc, if_neg (by linarith)]

theorem abs_halfAway_sub_of_pos {q : K} (h : 0 < q) : |(halfAway q : K) - q| ≤ 1 / 2 := by
  rw [halfAway_of_pos h, abs_le]
  have hle := Int.floor_le (q + 1 / 2)
  have hlt := Int.lt_floor_add_one (q + 1 / 2)
  constructor
  · linarith
  · linarith

/-- Rounding moves a number by at most a half. -/
theorem abs_halfAway_sub_le (q : K) : |(halfAway q : K) - q| ≤ 1 / 2 := by
  rcases lt_trichotomy q 0 with h | rfl | h
  · have hneg := abs_halfAway_sub_of_pos (neg_pos.mpr h)
    rw [halfAway_neg, Int.cast_neg, ← abs_neg] at hneg
    have hq : (halfAway q : K) - q = -(-(halfAway q : K) - -q) := by ring
    rw [hq]
    exact hneg
  · simp [halfAway, nudge, trunc]
  · exact abs_halfAway_sub_of_pos h

end Lib.Round
