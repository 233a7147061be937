/-
  SeerDIOBoard.Mileage.FloatLoops — where the two loops of `doCalc` that bring the angle into
  its range come to an end.

  A turn of a loop adds or takes away 2 * PI in `double` and rounds to `float`. Up to 2^27
  the last place of a `float` is at most 8, and every turn gets at least 2 closer
  (`raised`, `lowered`): the loops end, within 4 (`normalise_ends`, `normalise_some`). From
  2^27 + 16 on the last place is 16, and the angle stays where it is or further out
  (`far_sub`): the loops go on for ever (`normalise_endless`). There is no `float` between
  the two (`normalise_ends_iff`).
-/

import SeerDIOBoard.Mileage.Floats

namespace SeerDIOBoard.Mileage.Floats

open Lib.Ieee

theorem single_neg (v : Val) : single (-v) = -single v := binary32.round_neg v

theorem double_neg (v : Val) : double (-v) = -double v := binary64.round_neg v

/-! ## By way of `double` -/

/-- `PI` and `2 * PI` as numbers. -/
def piD : ℚ := binary64.nearest pi
def turn : ℚ := binary64.nearest (2 * piD)

theorem PI_eq : PI = .fin piD := by decide +kernel
theorem two_PI_eq : double (.ofInt 2 * PI) = .fin turn := by decide +kernel
theorem turn_bounds : 6283185 / 1000000 ≤ turn ∧ turn ≤ 6283186 / 1000000 := by decide +kernel
theorem piD_bounds : 3 ≤ piD ∧ piD ≤ 31416 / 10000 := by decide +kernel

/-- A number by way of `double` to `float`. -/
def narrow (q : ℚ) : ℚ := binary32.nearest (binary64.nearest q)

theorem narrow_neg (q : ℚ) : narrow (-q) = -narrow q := by rw [narrow, Format.nearest_neg, Format.nearest_neg, narrow]

theorem narrow_mono {q r : ℚ} (h : q ≤ r) : narrow q ≤ narrow r := binary32.nearest_mono (binary64.nearest_mono h)

theorem single_double_fin {q : ℚ} (h : |q| ≤ 2 ^ 28) : single (double (.fin q)) = .fin (narrow q) := by
  have hwide : |binary64.nearest q| ≤ 2 ^ 28 := by
    have hle : |binary64.nearest q| ≤ binary64.nearest (2 ^ 28) := binary64.abs_nearest_le h
    rwa [show binary64.nearest (2 ^ 28) = 2 ^ 28 by decide +kernel] at hle
  have hnarrow : |narrow q| ≤ 2 ^ 28 := by
    have hle : |narrow q| ≤ binary32.nearest (2 ^ 28) := binary32.abs_nearest_le hwide
    rwa [show binary32.nearest (2 ^ 28) = 2 ^ 28 by decide +kernel] at hle
  rw [double, binary64.round_fin (hwide.trans_lt (by decide +kernel)), single,
    binary32.round_fin (show |narrow q| < _ from hnarrow.trans_lt (by decide +kernel)), narrow]

/-- Below 2^27 the last place of a `float` is at most 8. -/
theorem abs_narrow_sub_le {q : ℚ} (h : |q| < 2 ^ 27 - 1) : |narrow q - q| ≤ 33 / 8 := by
  have hwide : |binary64.nearest q - q| ≤ 1 / 8 := by
    refine (binary64.abs_nearest_sub_le (k := 27) (by decide) (h.trans ?_)).trans ?_
    · norm_num
    · norm_num [binary64]
  have hsize : |binary64.nearest q| < 2 ^ (27 : Int) := by
    have htri := abs_sub_abs_le_abs_sub (binary64.nearest q) q
    norm_num at h ⊢
    linarith
  have hnarrow : |narrow q - binary64.nearest q| ≤ 4 := by
    refine (binary32.abs_nearest_sub_le (by decide) hsize).trans ?_
    norm_num [binary32]
  have htri := abs_sub_le (narrow q) (binary64.nearest q) q
  linarith

/-- A full turn up from a negative number. -/
theorem narrow_add_turn {q : ℚ} (hlo : -2 ^ 27 ≤ q) (hhi : q ≤ -3) : q + 2 ≤ narrow (q + turn) ∧ narrow (q + turn) ≤ 4 := by
  obtain ⟨hturn, hturn'⟩ := turn_bounds
  have hclose := abs_narrow_sub_le (q := q + turn) (by rw [abs_lt]; constructor <;> linarith)
  rw [abs_le] at hclose
  refine ⟨by linarith, ?_⟩
  have hfour : narrow 4 = 4 := by decide +kernel
  exact (narrow_mono (by linarith)).trans_eq hfour

theorem single_double_add {q : ℚ} (h : |q| ≤ 2 ^ 27) :
    single (double (.fin q + double (.ofInt 2 * PI))) = .fin (narrow (q + turn)) := by
  have hturn := turn_bounds
  rw [abs_le] at h
  rw [two_PI_eq, Val.fin_add, single_double_fin]
  rw [abs_le]
  constructor <;> linarith [hturn.1, hturn.2, h.1, h.2]

theorem single_double_sub {q : ℚ} (h : |q| ≤ 2 ^ 27) :
    single (double (.fin q - double (.ofInt 2 * PI))) = .fin (narrow (q - turn)) := by
  have hturn := turn_bounds
  rw [abs_le] at h
  rw [two_PI_eq, Val.fin_sub, single_double_fin]
  rw [abs_le]
  constructor <;> linarith [hturn.1, hturn.2, h.1, h.2]

/-! ## The loops end -/

namespace CMileage

theorem le_neg_PI (q : ℚ) : Val.le (.fin q) (-PI) = decide (q ≤ -piD) := by
  rw [PI_eq]
  rfl

theorem PI_lt (q : ℚ) : Val.lt PI (.fin q) = decide (piD < q) := by
  rw [PI_eq]
  rfl

/-- A turn of the loop, or its end. -/
theorem raiseAngle_fin {fuel : Nat} {q : ℚ} (h : |q| ≤ 2 ^ 27) :
    raiseAngle (fuel + 1) (.fin q) = if q ≤ -piD then raiseAngle fuel (.fin (narrow (q + turn))) else some (.fin q) := by
  rw [raiseAngle, le_neg_PI, single_double_add h]
  exact if_congr decide_eq_true_iff rfl rfl

theorem lowerAngle_fin {fuel : Nat} {q : ℚ} (h : |q| ≤ 2 ^ 27) :
    lowerAngle (fuel + 1) (.fin q) = if piD < q then lowerAngle fuel (.fin (narrow (q - turn))) else some (.fin q) := by
  rw [lowerAngle, PI_lt, single_double_sub h]
  exact if_congr decide_eq_true_iff rfl rfl

/-- A turn of the first loop stays where the next one can start. -/
theorem raised {q : ℚ} (h : |q| ≤ 2 ^ 27) (hq : q ≤ -piD) :
    q + 2 ≤ narrow (q + turn) ∧ narrow (q + turn) ≤ 4 ∧ |narrow (q + turn)| ≤ 2 ^ 27 := by
  rw [abs_le] at h
  obtain ⟨hup, hfour⟩ := narrow_add_turn h.1 (by linarith [piD_bounds.1])
  refine ⟨hup, hfour, abs_le.mpr ⟨by linarith, by linarith⟩⟩

theorem lowered {q : ℚ} (h : |q| ≤ 2 ^ 27) (hq : piD < q) :
    narrow (q - turn) ≤ q - 2 ∧ -4 ≤ narrow (q - turn) ∧ |narrow (q - turn)| ≤ 2 ^ 27 := by
  have hneg : narrow (q - turn) = -narrow (-q + turn) := by rw [← narrow_neg, neg_add, neg_neg, sub_eq_add_neg]
  rw [abs_le] at h
  obtain ⟨hup, hfour⟩ := narrow_add_turn (q := -q) (by linarith) (by linarith [piD_bounds.1])
  rw [hneg]
  refine ⟨by linarith, by linarith, abs_le.mpr ⟨by linarith, by linarith⟩⟩

/-- The first loop ends above -PI, and above 4 only where it starts. -/
theorem raiseAngle_some {fuel : Nat} {q : ℚ} {a : Val} (h : |q| ≤ 2 ^ 27) (ha : raiseAngle fuel (.fin q) = some a) :
    ∃ r, a = .fin r ∧ -piD < r ∧ r ≤ max q 4 := by
  induction fuel generalizing q with
  | zero => cases ha
  | succ fuel ih =>
    rw [raiseAngle_fin h] at ha
    split at ha
    case isTrue hq =>
      obtain ⟨-, hfour, hrange⟩ := raised h hq
      obtain ⟨r, hr, hlo, hhi⟩ := ih hrange ha
      exact ⟨r, hr, hlo, hhi.trans (max_le (hfour.trans (le_max_right q 4)) (le_max_right q 4))⟩
    case isFalse hq =>
      cases ha
      exact ⟨q, rfl, not_le.mp hq, le_max_left q 4⟩

theorem raiseAngle_isSome {n : Nat} {q : ℚ} (h : |q| ≤ 2 ^ 27) (hn : -q ≤ 2 * n) :
    (raiseAngle (n + 1) (.fin q)).isSome = true := by
  induction n generalizing q with
  | zero =>
    have hq : ¬ q ≤ -piD := by
      have hpi := piD_bounds.1
      push_cast at hn
      linarith
    rw [raiseAngle_fin h, if_neg hq]
    rfl
  | succ n ih =>
    rw [raiseAngle_fin h]
    split
    case isTrue hq =>
      obtain ⟨hup, -, hrange⟩ := raised h hq
      push_cast at hn
      exact ih hrange (by linarith)
    case isFalse => rfl

/-- The second loop ends within 4, from above -4. -/
theorem lowerAngle_some {fuel : Nat} {q : ℚ} {a : Val} (h : |q| ≤ 2 ^ 27) (hq : -4 ≤ q)
    (ha : lowerAngle fuel (.fin q) = some a) : ∃ r, a = .fin r ∧ |r| ≤ 4 := by
  induction fuel generalizing q with
  | zero => cases ha
  | succ fuel ih =>
    rw [lowerAngle_fin h] at ha
    split at ha
    case isTrue hgt =>
      obtain ⟨-, hfour, hrange⟩ := lowered h hgt
      exact ih hrange hfour ha
    case isFalse hle =>
      cases ha
      exact ⟨q, rfl, abs_le.mpr ⟨hq, by linarith [piD_bounds.2]⟩⟩

theorem lowerAngle_isSome {n : Nat} {q : ℚ} (h : |q| ≤ 2 ^ 27) (hn : q ≤ 2 * n) :
    (lowerAngle (n + 1) (.fin q)).isSome = true := by
  induction n generalizing q with
  | zero =>
    have hq : ¬ piD < q := by
      have hpi := piD_bounds.1
      push_cast at hn
      linarith
    rw [lowerAngle_fin h, if_neg hq]
    rfl
  | succ n ih =>
    rw [lowerAngle_fin h]
    split
    case isTrue hq =>
      obtain ⟨hdown, -, hrange⟩ := lowered h hq
      push_cast at hn
      exact ih hrange (by linarith)
    case isFalse => rfl

/-- Wherever the loops end from 2^27 inwards, it is within 4. -/
theorem normalise_some {fuel : Nat} {a b : Val} (h : a.Within (2 ^ 27)) (hb : normalise fuel a = some b) : b.Within 4 := by
  obtain ⟨q, rfl⟩ := Val.exists_of_isFin h.isFin
  obtain ⟨r, hr, hlower⟩ := Option.bind_eq_some_iff.mp hb
  obtain ⟨r, rfl, hlo, hhi⟩ := raiseAngle_some h hr
  have hrange := abs_le.mp (show |q| ≤ 2 ^ 27 from h)
  have hpi := piD_bounds.2
  have hr : |r| ≤ 2 ^ 27 := abs_le.mpr ⟨by linarith, hhi.trans (max_le hrange.2 (by norm_num))⟩
  obtain ⟨r', rfl, hfour⟩ := lowerAngle_some hr (by linarith) hlower
  exact hfour

/-- From 2^27 inwards the loops end. -/
theorem normalise_ends {a : Val} (h : a.Within (2 ^ 27)) : ∃ fuel b, normalise fuel a = some b := by
  obtain ⟨q, rfl⟩ := Val.exists_of_isFin h.isFin
  have hrange := abs_le.mp (show |q| ≤ 2 ^ 27 from h)
  have hhalf : ((2 ^ 26 : Nat) : ℚ) = 2 ^ 26 := by norm_num
  obtain ⟨r, hraise⟩ := Option.isSome_iff_exists.mp (raiseAngle_isSome (n := 2 ^ 26) h (by rw [hhalf]; linarith))
  obtain ⟨r, rfl, hlo, hhi⟩ := raiseAngle_some h hraise
  have hpi := piD_bounds.2
  have hr : r ≤ 2 ^ 27 := hhi.trans (max_le hrange.2 (by norm_num))
  obtain ⟨b, hlower⟩ := Option.isSome_iff_exists.mp
    (lowerAngle_isSome (n := 2 ^ 26) (abs_le.mpr ⟨by linarith, hr⟩) (by rw [hhalf]; linarith))
  exact ⟨2 ^ 26 + 1, b, Option.bind_eq_some_iff.mpr ⟨_, hraise, hlower⟩⟩

/-! ## Too far out -/

theorem far_gt {a : Val} (h : a.AtLeast (2 ^ 27 + 16)) : Val.lt PI a = true ∧ Val.le a (-PI) = false := by
  rw [PI_eq]
  cases a with
  | fin q =>
    have hq : 2 ^ 27 + 16 ≤ q := h
    obtain ⟨hpi, hpi'⟩ := piD_bounds
    exact ⟨decide_eq_true (by linarith), decide_eq_false (by linarith)⟩
  | inf s =>
    cases h
    exact ⟨rfl, rfl⟩
  | nan => exact h.elim

/-- Out there a full turn is less than half the last place. -/
theorem far_sub {a : Val} (h : a.AtLeast (2 ^ 27 + 16)) :
    (single (double (a - double (.ofInt 2 * PI)))).AtLeast (2 ^ 27 + 16) := by
  have hdouble := binary64.atLeast_round (h.sub turn) (by linarith [turn_bounds.2])
  have hsingle := binary32.atLeast_round hdouble (by decide +kernel)
  rw [two_PI_eq]
  exact hsingle.mono (by decide +kernel)

theorem lowerAngle_endless {a : Val} (h : a.AtLeast (2 ^ 27 + 16)) (fuel : Nat) : lowerAngle fuel a = none := by
  induction fuel generalizing a with
  | zero => rfl
  | succ fuel ih =>
    rw [lowerAngle, if_pos (far_gt h).1]
    exact ih (far_sub h)

/-- The first loop is the second one seen from below. -/
theorem raiseAngle_endless {a : Val} (h : (-a).AtLeast (2 ^ 27 + 16)) (fuel : Nat) : raiseAngle fuel a = none := by
  induction fuel generalizing a with
  | zero => rfl
  | succ fuel ih =>
    have hle : Val.le a (-PI) = true := by
      have hgt := (far_gt h).1
      rw [PI_eq] at hgt ⊢
      cases a with
      | fin q =>
        have hq : piD < -q := of_decide_eq_true hgt
        exact decide_eq_true (by linarith)
      | inf s => exact (Bool.not_not s).symm.trans hgt
      | nan => cases hgt
    have hneg : -single (double (a + double (.ofInt 2 * PI))) = single (double (-a - double (.ofInt 2 * PI))) := by
      rw [two_PI_eq, ← single_neg, ← double_neg, Val.neg_add_fin]
    rw [raiseAngle, if_pos hle]
    refine ih ?_
    rw [hneg]
    exact far_sub h

/-- From 2^27 + 16 outwards they never do. -/
theorem normalise_endless {a : Val} (h : a.AtLeast (2 ^ 27 + 16) ∨ (-a).AtLeast (2 ^ 27 + 16)) (fuel : Nat) :
    normalise fuel a = none := by
  rcases h with h | h
  · cases fuel with
    | zero => rfl
    | succ fuel =>
      have hraise : raiseAngle (fuel + 1) a = some a := by rw [raiseAngle, (far_gt h).2]; rfl
      rw [normalise, hraise]
      exact lowerAngle_endless h (fuel + 1)
  · rw [normalise, raiseAngle_endless h fuel]
    rfl

/-- Between the two there is no `float`. -/
theorem normalise_ends_iff {a : Val} (ha : single a = a) (hfin : a.IsFin) :
    (∃ fuel b, normalise fuel a = some b) ↔ a.Within (2 ^ 27) := by
  refine ⟨fun ⟨fuel, b, hb⟩ => ?_, normalise_ends⟩
  obtain ⟨q, rfl⟩ := Val.exists_of_isFin hfin
  by_contra hfar
  have hfar : (2 : ℚ) ^ (27 : Int) < |q| := by
    have h := not_le.mp (show ¬ |q| ≤ 2 ^ 27 from hfar)
    exact_mod_cast h
  obtain ⟨n, hn⟩ := (binary32.rep_of_round ha).multiple hfar.le
  have hplace : ((27 : Int) - binary32.fracBits) = 4 := by decide
  rw [hplace] at hn
  have hsize : 2 ^ 27 + 16 ≤ |q| := by
    have hmul : |q| = ((|n| * 16 : Int) : ℚ) := by
      rw [hn, abs_mul]
      push_cast
      norm_num
    have hgt : (2 : Int) ^ 27 < |n| * 16 := by
      rw [hmul] at hfar
      exact_mod_cast hfar
    rw [hmul]
    exact_mod_cast (show (2 : Int) ^ 27 + 16 ≤ |n| * 16 by omega)
  have hnone : normalise fuel (.fin q) = none := by
    refine normalise_endless ?_ fuel
    rcases le_abs.mp hsize with h | h
    · exact .inl h
    · exact .inr h
  rw [hnone] at hb
  cases hb

end CMileage
end SeerDIOBoard.Mileage.Floats
