/-
  Lib.DiffDrive — the kinematics of a body on two driven wheels, a distance `b` apart.

  `wheels` are the speeds of the left and the right wheel at which the body moves on at `v`
  and turns at `w`, and `body` is the motion that two wheels give it. The one undoes the
  other, and both go along with a change of scale, so rolling the wheels for a time is
  moving the body for that time.
-/

import Mathlib.Algebra.CharZero.Defs
import Mathlib.Algebra.Field.Basic
import Mathlib.Tactic.FieldSimp
import Mathlib.Tactic.Ring

namespace Lib.DiffDrive

variable {K : Type*} [Field K]

def wheels (b v w : K) : K × K := ((v + v - b * w) / (1 + 1), (v + v + b * w) / (1 + 1))

def body (b l r : K) : K × K := ((r + l) / (1 + 1), (r - l) / b)

theorem body_mul (b k l r : K) : body b (k * l) (k * r) = (k * (body b l r).1, k * (body b l r).2) := by
  refine Prod.ext ?_ ?_
  · simp only [body]
    ring
  · simp only [body]
    ring

variable [CharZero K]

theorem one_add_one_ne_zero : (1 + 1 : K) ≠ 0 := by
  have h := Nat.cast_add_one_ne_zero (R := K) 1
  rwa [Nat.cast_one] at h

theorem body_wheels {b : K} (hb : b ≠ 0) (v w : K) : body b (wheels b v w).1 (wheels b v w).2 = (v, w) := by
  have h2 : (1 + 1 : K) ≠ 0 := one_add_one_ne_zero
  refine Prod.ext ?_ ?_
  · simp only [body, wheels]
    field_simp
    ring
  · simp only [body, wheels]
    field_simp
    ring

/-- Both wheels at the speeds of a motion, for a time `t`. -/
theorem body_wheels_mul {b : K} (hb : b ≠ 0) (t v w : K) :
    body b (t * (wheels b v w).1) (t * (wheels b v w).2) = (t * v, t * w) := by rw [body_mul, body_wheels hb]

end Lib.DiffDrive
