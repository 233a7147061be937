/-
  SeerDIOBoard.Utils.Normalize — bringing an angle into (-PI, PI] (src/src/Utils.cxx).

  `Normalize` first removes whole turns by a division, where the angle is more than a turn
  from zero, then runs the two loops of `CMileage::doCalc` in the other order. The
  conversion to `long` cuts toward zero where the quotient fits (`Long`); beyond, the
  machine decides.

  `normalize_eq`: where the quotient fits, the result is the only angle of the range that
  differs from the argument by full turns, and the one the loops alone compute.
-/

import SeerDIOBoard.Mileage.Heading

namespace SeerDIOBoard.Utils

open Lib.Round
open Mileage Mileage.CMileage

/-- The conversion of a float to `long`: of the numbers below `limit` in size it keeps the
    whole part. -/
structure Long where
  limit : Nat
  conv : ℚ → Int
  conv_eq : ∀ q : ℚ, |q| < (limit : ℚ) → conv q = trunc q

def Fabs (v : ℚ) : ℚ := if 0 ≤ v then v else -1 * v

def Normalize (ar : Arith) (long : Long) (angle : ℚ) : ℚ :=
  let tmp2pi := 2 * ar.pi
  let angle := if tmp2pi < Fabs angle then angle - long.conv (angle / tmp2pi) * tmp2pi else angle
  raiseAngle ar (lowerAngle ar angle)

variable {ar : Arith}

/-- The loops in the order of `Normalize`. -/
theorem normalised_lowerFirst (angle : ℚ) :
    raiseAngle ar (lowerAngle ar angle) = toIocMod ar.turn_pos (-ar.pi) angle := by
  have hmem : raiseAngle ar (lowerAngle ar angle) ∈ Set.Ioc (-ar.pi) ar.pi := raiseAngle_mem (lowerAngle_le angle)
  rw [← lowerAngle_mod, ← raiseAngle_mod]
  refine ((toIocMod_eq_self ar.turn_pos).mpr ?_).symm
  rw [range_eq]
  exact hmem

/-- Where the quotient fits, the division removes whole turns. -/
theorem normalize_toIocMod {long : Long} {a : ℚ} (h : |a / (2 * ar.pi)| < long.limit) :
    Normalize ar long a = toIocMod ar.turn_pos (-ar.pi) a := by
  unfold Normalize
  rw [normalised_lowerFirst, long.conv_eq _ h]
  split
  · have hturns := toIocMod_sub_zsmul ar.turn_pos (-ar.pi) a (trunc (a / (2 * ar.pi)))
    rwa [zsmul_eq_mul] at hturns
  · rfl

theorem normalize_eq (ar : Arith) (long : Long) (a : ℚ) (h : |a / (2 * ar.pi)| < long.limit) :
    Heading ar a (Normalize ar long a) ∧ Normalize ar long a = lowerAngle ar (raiseAngle ar a) := by
  rw [normalised, normalize_toIocMod h]
  exact ⟨heading_toIocMod ar a, rfl⟩

/-- A conversion that stops at the ends of 32 bits. -/
def long32Conv (q : ℚ) : Int := max (-2 ^ 31) (min (2 ^ 31 - 1) (trunc q))

theorem long32Conv_eq (q : ℚ) (h : |q| < ((2 ^ 31 : Nat) : ℚ)) : long32Conv q = trunc q := by
  have hcut : |(trunc q : ℚ)| < ((2 ^ 31 : Int) : ℚ) := (abs_trunc_le q).trans_lt (by exact_mod_cast h)
  rw [← Int.cast_abs, Int.cast_lt, abs_lt] at hcut
  unfold long32Conv
  omega

def long32 : Long := ⟨2 ^ 31, long32Conv, long32Conv_eq⟩

/-- Six turns back and a bit. -/
theorem normalize_minusForty :
    Heading Chassis.exact (-40) (Normalize Chassis.exact long32 (-40)) ∧
      Normalize Chassis.exact long32 (-40) = lowerAngle Chassis.exact (raiseAngle Chassis.exact (-40)) :=
  normalize_eq Chassis.exact long32 (-40) (by decide +kernel)

end SeerDIOBoard.Utils
