/-
  SeerDIOBoard.Mileage.KinematicsProofs — what the parts of the drive path do.

  - `overspeed_checked`: the limiter's first loop finds whether a wheel is over the limit,
    and then the fastest wheel. `inverseKinematicsTrans_slow` / `_limited` / `_le`: under the
    limit nothing changes, over it every wheel is scaled by one factor, and no wheel
    comes out over the limit.
  - `wheelCmd_left` / `_right`: what a command asks of two wheels.
  - `setVelocities_left` / `_right`: of two wheels the left one is stored with its sign
    turned, both rounded half away from zero, for either sign of `m_inverse`.
  - `diffWheels_ok`, `doCalc_ok`: a sample with no jump is integrated for every wheel.
-/

import Mathlib.Algebra.Order.Field.Basic
import Mathlib.Data.List.Induction
import SeerDIOBoard.Mileage.Kinematics

namespace SeerDIOBoard.Mileage.CMileage

open Function (update)
open Lib.Round

/-! ## The limiter -/

/-- What the first loop of the limiter knows after the wheels `vs`. -/
structure Checked (m : CMileage) (vs : List ℚ) (s : Bool × ℚ) : Prop where
  none_over : s.1 = false → ∀ v ∈ vs, |v| ≤ m.motorMaxSpeed
  some_over : s.1 = true → ∃ v ∈ vs, m.motorMaxSpeed < |v|
  exceeds : s.1 = true → m.motorMaxSpeed < s.2
  fastest : s.1 = true → ∀ v ∈ vs, |v| ≤ s.2

theorem tempVel_eq (v : ℚ) : (if 0 < v then v else -1 * v) = |v| := by
  split
  case isTrue h => rw [abs_of_pos h]
  case isFalse h => rw [abs_of_nonpos (not_lt.mp h), neg_one_mul]

theorem checkSpeed_checked {m : CMileage} {vs : List ℚ} {s : Bool × ℚ} (h : Checked m vs s) (v : ℚ) :
    Checked m (vs ++ [v]) (m.checkSpeed s v) := by
  have hmem : ∀ {b : ℚ}, (∀ u ∈ vs, |u| ≤ b) → |v| ≤ b → ∀ u ∈ vs ++ [v], |u| ≤ b := by
    intro b hvs hv u hu
    rcases List.mem_append.mp hu with hu | hu
    · exact hvs u hu
    · rw [List.mem_singleton.mp hu]
      exact hv
  unfold checkSpeed
  simp only [tempVel_eq]
  by_cases hv : m.motorMaxSpeed < |v|
  · rw [if_pos hv]
    have hle : s.2 ≤ (if s.2 < |v| then |v| else s.2) ∧ |v| ≤ (if s.2 < |v| then |v| else s.2) := by
      split
      case isTrue hlt => exact ⟨hlt.le, le_rfl⟩
      case isFalse hnot => exact ⟨le_rfl, not_lt.mp hnot⟩
    have hvs : ∀ u ∈ vs, |u| ≤ (if s.2 < |v| then |v| else s.2) := by
      intro u hu
      cases hf : s.1 with
      | false => exact ((h.none_over hf u hu).trans hv.le).trans hle.2
      | true => exact (h.fastest hf u hu).trans hle.1
    exact ⟨fun hf => Bool.noConfusion hf, fun _ => ⟨v, by simp, hv⟩, fun _ => hv.trans_le hle.2,
      fun _ => hmem hvs hle.2⟩
  · rw [if_neg hv]
    have hv := not_lt.mp hv
    have hfastest : s.1 = true → ∀ u ∈ vs ++ [v], |u| ≤ s.2 := fun ht =>
      hmem (h.fastest ht) (hv.trans (h.exceeds ht).le)
    refine ⟨fun hf => hmem (h.none_over hf) hv, fun ht => ?_, h.exceeds, hfastest⟩
    obtain ⟨u, hu, hlt⟩ := h.some_over ht
    exact ⟨u, List.mem_append_left [v] hu, hlt⟩

theorem foldl_checked (m : CMileage) (vs : List ℚ) :
    Checked m vs (vs.foldl m.checkSpeed (false, 0)) := by
  induction vs using List.reverseRecOn with
  | nil =>
    exact ⟨fun _ _ hu => absurd hu List.not_mem_nil, fun h => Bool.noConfusion h, fun h => Bool.noConfusion h,
      fun h => Bool.noConfusion h⟩
  | append_singleton vs v ih =>
    rw [List.foldl_append, List.foldl_cons, List.foldl_nil]
    exact checkSpeed_checked ih v

theorem overspeed_checked (m : CMileage) (wheelVel : Nat → ℚ) :
    Checked m ((List.range m.numOfWheel).map wheelVel) (m.overspeed wheelVel) := foldl_checked m _

theorem mem_wheels {m : CMileage} (wheelVel : Nat → ℚ) {i : Nat} (hi : i < m.numOfWheel) :
    wheelVel i ∈ (List.range m.numOfWheel).map wheelVel := List.mem_map_of_mem (List.mem_range.mpr hi)

/-- The flag is that some wheel is over the limit. -/
theorem overspeed_iff (m : CMileage) (wheelVel : Nat → ℚ) :
    (m.overspeed wheelVel).1 = true ↔ ∃ i, i < m.numOfWheel ∧ m.motorMaxSpeed < |wheelVel i| := by
  have hc := overspeed_checked m wheelVel
  constructor
  · intro h
    obtain ⟨v, hv, hlt⟩ := hc.some_over h
    obtain ⟨i, hi, rfl⟩ := List.mem_map.mp hv
    exact ⟨i, List.mem_range.mp hi, hlt⟩
  · intro ⟨i, hi, hlt⟩
    by_contra hf
    exact absurd hlt (not_lt.mpr (hc.none_over (Bool.eq_false_iff.mpr hf) _ (mem_wheels wheelVel hi)))

theorem inverseKinematicsTrans_slow {m : CMileage} {planarVel : PlanarVel} {wheelVel : Nat → ℚ}
    (h : (m.overspeed (m.inverseKinematicsTransDiff planarVel wheelVel)).1 = false) :
    m.inverseKinematicsTrans planarVel wheelVel = m.inverseKinematicsTransDiff planarVel wheelVel := by
  unfold inverseKinematicsTrans
  simp only [h, Bool.false_eq_true, if_false]

/-- The factor the limiter scales the wheels by. -/
def limitFactor (m : CMileage) (wheelVel : Nat → ℚ) : ℚ := m.motorMaxSpeed / (m.overspeed wheelVel).2

theorem limitFactor_range {m : CMileage} (hmax : 0 ≤ m.motorMaxSpeed) {wheelVel : Nat → ℚ}
    (h : (m.overspeed wheelVel).1 = true) : 0 ≤ m.limitFactor wheelVel ∧ m.limitFactor wheelVel < 1 := by
  have hlt := (overspeed_checked m wheelVel).exceeds h
  have hpos : 0 < (m.overspeed wheelVel).2 := hmax.trans_lt hlt
  exact ⟨div_nonneg hmax hpos.le, (div_lt_one hpos).mpr hlt⟩

theorem inverseKinematicsTrans_limited {m : CMileage} {planarVel : PlanarVel} {wheelVel : Nat → ℚ}
    (h : (m.overspeed (m.inverseKinematicsTransDiff planarVel wheelVel)).1 = true) {i : Nat} (hi : i < m.numOfWheel) :
    m.inverseKinematicsTrans planarVel wheelVel i =
      m.limitFactor (m.inverseKinematicsTransDiff planarVel wheelVel) *
        m.inverseKinematicsTransDiff planarVel wheelVel i := by
  unfold inverseKinematicsTrans
  simp only [h, if_true, if_pos hi]
  rw [mul_comm]
  rfl

/-- No wheel comes out over the limit. -/
theorem inverseKinematicsTrans_le {m : CMileage} (hmax : 0 ≤ m.motorMaxSpeed) (planarVel : PlanarVel)
    (wheelVel : Nat → ℚ) {i : Nat} (hi : i < m.numOfWheel) :
    |m.inverseKinematicsTrans planarVel wheelVel i| ≤ m.motorMaxSpeed := by
  have hc := overspeed_checked m (m.inverseKinematicsTransDiff planarVel wheelVel)
  have hmem := mem_wheels (m.inverseKinematicsTransDiff planarVel wheelVel) hi
  cases hf : (m.overspeed (m.inverseKinematicsTransDiff planarVel wheelVel)).1 with
  | false =>
    rw [inverseKinematicsTrans_slow hf]
    exact hc.none_over hf _ hmem
  | true =>
    have hpos := hmax.trans_lt (hc.exceeds hf)
    rw [inverseKinematicsTrans_limited hf hi, abs_mul, abs_of_nonneg (limitFactor_range hmax hf).1, limitFactor,
      div_mul_eq_mul_div, div_le_iff₀ hpos]
    exact mul_le_mul_of_nonneg_left (hc.fastest hf _ hmem) hmax

/-! ## Two wheels -/

theorem wheelCmd_left (m : CMileage) (planarVel : PlanarVel) :
    m.wheelCmd planarVel 0 = m.velReduceScale * ((2 * planarVel.vx - m.e * planarVel.w) * (1 / 2)) / m.scale 0 := rfl

theorem wheelCmd_right (m : CMileage) (planarVel : PlanarVel) :
    m.wheelCmd planarVel 1 = m.velReduceScale * ((2 * planarVel.vx + m.e * planarVel.w) * (1 / 2)) / m.scale 1 := rfl

theorem numOfWheel_diff {m : CMileage} (h : m.chassisType = doubleDiff) : m.numOfWheel = 2 := by
  rw [CMileage.numOfWheel, h]
  rfl

/-- The sign of `m_inverse` goes through the rounding. -/
theorem trunc_mul_inverse (m : CMileage) (q : ℚ) : trunc (q * m.inverse) = m.inverse * trunc q := by
  rcases m.inverse_unit with h | h
  · simp [h]
  · simp [h, trunc_neg]

theorem inverse_mul_self (m : CMileage) : m.inverse * m.inverse = 1 := by
  rcases m.inverse_unit with h | h
  · rw [h]
    rfl
  · rw [h]
    rfl

theorem setVelocities_two {m : CMileage} (h : m.numOfWheel = 2) (wheelvel : Nat → ℚ) :
    m.setVelocities wheelvel =
      { m with
        vel := update (update m.vel 0 (-(m.inverse * halfAway (wheelvel 0)))) 1 (m.inverse * halfAway (wheelvel 1)) } := by
  have h0 : trunc (nudge (wheelvel 0) * -1 * m.inverse) = -(m.inverse * halfAway (wheelvel 0)) := by
    rw [trunc_mul_inverse, mul_neg_one, trunc_neg, mul_neg, halfAway]
  unfold setVelocities
  simp only [h, if_true, Nat.zero_lt_two, Nat.one_lt_two, h0, trunc_mul_inverse]
  rfl

theorem setVelocities_left {m : CMileage} (h : m.numOfWheel = 2) (wheelvel : Nat → ℚ) :
    (m.setVelocities wheelvel).vel 0 = -(m.inverse * halfAway (wheelvel 0)) := by
  rw [setVelocities_two h]
  rfl

theorem setVelocities_right {m : CMileage} (h : m.numOfWheel = 2) (wheelvel : Nat → ℚ) :
    (m.setVelocities wheelvel).vel 1 = m.inverse * halfAway (wheelvel 1) := by
  rw [setVelocities_two h]
  rfl

theorem getPositions_left {m : CMileage} (h : m.numOfWheel = 2) (ar : Arith) (p : Nat → Int) :
    m.getPositions ar p 0 = ar.int32 (-1 * m.inverse * m.pos 0) := by
  unfold getPositions
  rw [if_pos h.symm]
  rfl

theorem getPositions_right {m : CMileage} (h : m.numOfWheel = 2) (ar : Arith) (p : Nat → Int) :
    m.getPositions ar p 1 = ar.int32 (m.inverse * m.pos 1) := by
  unfold getPositions
  rw [if_pos h.symm]
  rfl

/-! ## A sample with no jump -/

/-- The differences that `doCalc` integrates. -/
def wheelDelta (ar : Arith) (p staticP : Nat → Int) (i : Nat) : Int := ar.int32 (p i - staticP i)

@[simp] theorem moveWheel_staticP (m : CMileage) (i : Nat) (q d : Int) :
    (m.moveWheel i q d).staticP = update m.staticP i q := rfl

theorem wheelDelta_moveWheel (ar : Arith) (p : Nat → Int) (m : CMileage) (i : Nat) (q d : Int) {j : Nat} (hj : i < j) :
    wheelDelta ar p (m.moveWheel i q d).staticP j = wheelDelta ar p m.staticP j := by
  rw [wheelDelta, wheelDelta, moveWheel_staticP, Function.update_of_ne (Nat.ne_of_gt hj)]

/-- Only the last readings and the flag of standing still change. -/
theorem diffWheels_ok (ar : Arith) (p : Nat → Int) (k : Nat) :
    ∀ (i : Nat) (m : CMileage) (wheelPos : Nat → ℚ),
      (∀ j, i ≤ j → j < i + k → |wheelDelta ar p m.staticP j| ≤ encoderMaxDiff) →
      ∃ sp st wheelPos', diffWheels ar p k i m wheelPos = (true, { m with staticP := sp, stopped := st }, wheelPos') ∧
        (∀ j, i ≤ j → j < i + k → wheelPos' j = wheelDelta ar p m.staticP j ∧ sp j = p j) ∧
        ∀ j, j < i → wheelPos' j = wheelPos j ∧ sp j = m.staticP j := by
  induction k with
  | zero => exact fun i m w _ => ⟨_, _, w, rfl, fun j h1 h2 => absurd h2 (by omega), fun _ _ => ⟨rfl, rfl⟩⟩
  | succ k ih =>
    intro i m w hno
    have hi := hno i (Nat.le_refl i) (by omega)
    have hrest : ∀ j, i + 1 ≤ j → j < i + 1 + k →
        |wheelDelta ar p (m.moveWheel i (p i) (wheelDelta ar p m.staticP i)).staticP j| ≤ encoderMaxDiff := by
      intro j h1 h2
      rw [wheelDelta_moveWheel ar p m i _ _ h1]
      exact hno j (Nat.le_of_succ_le h1) (by omega)
    obtain ⟨sp, st, w', heq, hin, hout⟩ := ih (i + 1) (m.moveWheel i (p i) (wheelDelta ar p m.staticP i))
      (update w i (wheelDelta ar p m.staticP i)) hrest
    refine ⟨sp, st, w', ?_, fun j h1 h2 => ?_, fun j hj => ?_⟩
    · rw [diffWheels]
      exact (if_neg (not_lt.mpr hi)).trans heq
    · rcases Nat.eq_or_lt_of_le h1 with rfl | h1
      · obtain ⟨hw, hs⟩ := hout i (Nat.lt_succ_self i)
        rw [hw, hs, Function.update_self]
        exact ⟨rfl, Function.update_self _ _ _⟩
      · rw [← wheelDelta_moveWheel ar p m i (p i) (wheelDelta ar p m.staticP i) h1]
        exact hin j h1 (by omega)
    · obtain ⟨hw, hs⟩ := hout j (by omega)
      rw [hw, hs, Function.update_of_ne (by omega)]
      exact ⟨rfl, Function.update_of_ne (by omega) _ _⟩

theorem doCalc_ok (ar : Arith) (planarPos : PlanarPos) (m : CMileage) (p : Nat → Int) (hfirst : m.firstIn = false)
    (hno : ∀ i, i < m.numOfWheel → |wheelDelta ar p m.staticP i| ≤ encoderMaxDiff) :
    ∃ sp st wheelPos, doCalc ar planarPos m p =
        (0, addPose ar { m with staticP := sp, stopped := st } (m.forwardKinematicsTrans wheelPos planarPos)) ∧
      ∀ i, i < m.numOfWheel → wheelPos i = wheelDelta ar p m.staticP i ∧ sp i = p i := by
  obtain ⟨sp, st, w, heq, hin, _⟩ := diffWheels_ok ar p m.numOfWheel 0 m (fun _ => 0) fun j _ hj =>
    hno j (by omega)
  refine ⟨sp, st, w, ?_, fun i hi => hin i (Nat.zero_le i) (by omega)⟩
  unfold doCalc
  rw [if_neg (by rw [hfirst]; exact Bool.noConfusion), heq]
  rfl

end SeerDIOBoard.Mileage.CMileage
