/-
  SeerDIOBoard.Chassis.SpeedLimit — the speed limit on the wire: `sendSpeedCmd`
  (src/chassis.cxx) from the commanded velocity to bytes 4 to 7 of the frames.

  `wireSpeed` is what a drive reads out of a frame. Between it and the limiter stand the
  rounding, which can add a half, the sign of the wheel, and the bytes of the `int32_t`.
  - `sendSpeedCmd_frames`: the two frames carry the rounded velocities, nothing is cut off.
  - `speed_limit`: they are within the limit, and the limiter leaves the ratio of the wheels
    alone.
-/

import SeerDIOBoard.Can.Requests
import SeerDIOBoard.Chassis.Config
import SeerDIOBoard.Mileage.KinematicsProofs

namespace SeerDIOBoard.Chassis

open SeerDIOBoard.Can SeerDIOBoard.Mileage
open Lib.Bytes Lib.Round

def CChassisDevice.planarVel (c : CChassisDevice ℚ) : PlanarVel :=
  { vx := c.oriGlobalX, vy := c.oriGlobalY, w := c.oriGlobalW }

/-- `sendSpeedCmd`, with the frames it writes. `txMessage` are the locals they are built in. -/
def sendSpeedCmd (s : Devices ℚ) (txMessage : Nat → CanTxMsg) : Option (Devices ℚ × List CanTxMsg) :=
  let s := { s with mileage := s.mileage.drive s.chassis.planarVel }
  match s.chassis.driverProtocol with
  | none => if 0 < s.mileage.numOfWheel then none else some (s, [])
  | some d =>
    some (s, (List.range s.mileage.numOfWheel).map fun i =>
      d.encode i .targetSpeed (s.mileage.getVel i) (txMessage i))

/-- Bytes 4 to 7 as a signed number. -/
def wireSpeed (msg : CanTxMsg) : Int := toInt32 (littleEndian ([4, 5, 6, 7].map msg.cmData))

/-! ## The frames -/

theorem toInt32_emod {v : Int} (hlo : -2 ^ 31 ≤ v) (hhi : v < 2 ^ 31) : toInt32 (v % 2 ^ 32) = v :=
  (Int.emod_bmod v (2 ^ 32)).trans (Int.bmod_eq_of_le_mul_two (by omega) (by omega))

theorem wireSpeed_encode (d : CDriverCanProtocol) (motorIdx : Nat) {v : Int} (msg : CanTxMsg) (hlo : -2 ^ 31 ≤ v)
    (hhi : v < 2 ^ 31) : wireSpeed (d.encode motorIdx .targetSpeed v msg) = v := by
  unfold wireSpeed
  rw [d.encode_speed_bytes, littleEndian_leBytes]
  exact toInt32_emod hlo hhi

/-- A velocity within the limit is an `int32_t` after rounding, in either sign. -/
theorem wireSpeed_within (d : CDriverCanProtocol) (motorIdx : Nat) (msg : CanTxMsg) {limit q : ℚ}
    (hlimit : limit ≤ 2 ^ 31 - 1) (hq : |q| ≤ limit) {v : Int} (hv : |(v : ℚ)| ≤ |q| + 1 / 2) :
    wireSpeed (d.encode motorIdx .targetSpeed v msg) = v := by
  have hlt : |(v : ℚ)| < 2 ^ 31 := by linarith
  obtain ⟨hlo, hhi⟩ := abs_lt.mp hlt
  have hlo : -2 ^ 31 < v := by exact_mod_cast hlo
  have hhi : v < 2 ^ 31 := by exact_mod_cast hhi
  exact wireSpeed_encode d motorIdx msg hlo.le hhi

theorem abs_inverse_mul (m : CMileage) (v : Int) : |((m.inverse * v : Int) : ℚ)| = |(v : ℚ)| := by
  rcases m.inverse_unit with h | h
  · rw [h, one_mul]
  · rw [h, neg_one_mul, Int.cast_neg, abs_neg]

/-- What is stored for a wheel is as fast as the wheel, up to the rounding. -/
theorem abs_drive_le {m : CMileage} (h : m.numOfWheel = 2) (planarVel : PlanarVel) :
    ∀ i, i < 2 → |((m.drive planarVel).getVel i : ℚ)| ≤ |m.wheelVel planarVel i| + 1 / 2 := by
  intro i hi
  obtain rfl | rfl : i = 0 ∨ i = 1 := by omega
  · rw [CMileage.getVel, CMileage.drive, CMileage.setVelocities_left h, Int.cast_neg, abs_neg, abs_inverse_mul]
    exact abs_halfAway_le _
  · rw [CMileage.getVel, CMileage.drive, CMileage.setVelocities_right h, abs_inverse_mul]
    exact abs_halfAway_le _

/-- The two frames carry the velocities that were stored. -/
theorem sendSpeedCmd_frames {s : Devices ℚ} (ht : s.mileage.chassisType = doubleDiff) (hmax : 0 ≤ s.mileage.motorMaxSpeed)
    (hrange : s.mileage.motorMaxSpeed ≤ 2 ^ 31 - 1) {d : CDriverCanProtocol} (hd : s.chassis.driverProtocol = some d)
    (txMessage : Nat → CanTxMsg) :
    ∃ s' left right, sendSpeedCmd s txMessage = some (s', [left, right]) ∧
      wireSpeed left = (s.mileage.drive s.chassis.planarVel).getVel 0 ∧
      wireSpeed right = (s.mileage.drive s.chassis.planarVel).getVel 1 := by
  have hn := CMileage.numOfWheel_diff ht
  have hdrive : (s.mileage.drive s.chassis.planarVel).numOfWheel = 2 := by
    unfold CMileage.drive
    rw [CMileage.setVelocities_two hn]
    exact hn
  have hle : ∀ i, i < 2 → |s.mileage.wheelVel s.chassis.planarVel i| ≤ s.mileage.motorMaxSpeed := fun i hi =>
    CMileage.inverseKinematicsTrans_le hmax _ _ (by rw [hn]; exact hi)
  have hvel := abs_drive_le hn s.chassis.planarVel
  refine ⟨{ s with mileage := s.mileage.drive s.chassis.planarVel },
    d.encode 0 .targetSpeed ((s.mileage.drive s.chassis.planarVel).getVel 0) (txMessage 0),
    d.encode 1 .targetSpeed ((s.mileage.drive s.chassis.planarVel).getVel 1) (txMessage 1), ?_,
    wireSpeed_within d 0 _ hrange (hle 0 (by decide)) (hvel 0 (by decide)),
    wireSpeed_within d 1 _ hrange (hle 1 (by decide)) (hvel 1 (by decide))⟩
  unfold sendSpeedCmd
  simp only [hd, hdrive]
  rfl

/-! ## The limit -/

/-- The wheels of a command stand in the ratio of the ground speeds it asks for. -/
theorem wheelCmd_ratio {m : CMileage} (h0 : m.scale 0 ≠ 0) (h1 : m.scale 1 ≠ 0) (planarVel : PlanarVel) :
    m.wheelCmd planarVel 0 * m.scale 0 * (2 * planarVel.vx + m.e * planarVel.w) =
      m.wheelCmd planarVel 1 * m.scale 1 * (2 * planarVel.vx - m.e * planarVel.w) := by
  rw [CMileage.wheelCmd_left, CMileage.wheelCmd_right, div_mul_cancel₀ _ h0, div_mul_cancel₀ _ h1]
  ring

/-- Over the limit: one factor for every wheel. -/
theorem wheelVel_scaled {m : CMileage} (hmax : 0 ≤ m.motorMaxSpeed) (planarVel : PlanarVel)
    (hover : (m.overspeed (m.wheelCmd planarVel)).1 = true) :
    ∃ k : ℚ, 0 ≤ k ∧ k < 1 ∧ (0 < m.motorMaxSpeed → 0 < k) ∧
      ∀ i, i < m.numOfWheel → m.wheelVel planarVel i = k * m.wheelCmd planarVel i := by
  obtain ⟨h0, h1⟩ := CMileage.limitFactor_range hmax hover
  refine ⟨m.limitFactor (m.wheelCmd planarVel), h0, h1, fun hpos => ?_, fun j hj => ?_⟩
  · exact div_pos hpos (hpos.trans ((CMileage.overspeed_checked m (m.wheelCmd planarVel)).exceeds hover))
  · exact CMileage.inverseKinematicsTrans_limited hover hj

theorem speed_limit (s : Devices ℚ) (ht : s.mileage.chassisType = doubleDiff) (h0 : s.mileage.scale 0 ≠ 0)
    (h1 : s.mileage.scale 1 ≠ 0) (hmax : 0 ≤ s.mileage.motorMaxSpeed) (hrange : s.mileage.motorMaxSpeed ≤ 2 ^ 31 - 1)
    (d : CDriverCanProtocol) (hd : s.chassis.driverProtocol = some d) (txMessage : Nat → CanTxMsg) :
    let m := s.mileage
    let u := m.wheelCmd s.chassis.planarVel
    let v := m.wheelVel s.chassis.planarVel
    let forward := 2 * s.chassis.planarVel.vx
    let turn := m.e * s.chassis.planarVel.w
    (∃ s' left right, sendSpeedCmd s txMessage = some (s', [left, right]) ∧
      ∀ msg ∈ [left, right], |(wireSpeed msg : ℚ)| ≤ m.motorMaxSpeed + 1 / 2) ∧
    ((∀ i, i < 2 → |u i| ≤ m.motorMaxSpeed) → v = u) ∧
    ((∃ i, i < 2 ∧ m.motorMaxSpeed < |u i|) →
      ∃ k : ℚ, 0 ≤ k ∧ k < 1 ∧ (0 < m.motorMaxSpeed → 0 < k) ∧ ∀ i, i < 2 → v i = k * u i) ∧
    v 0 * m.scale 0 * (forward + turn) = v 1 * m.scale 1 * (forward - turn) := by
  intro m u v forward turn
  have hn : m.numOfWheel = 2 := CMileage.numOfWheel_diff ht
  have hslow : (∀ i, i < 2 → |u i| ≤ m.motorMaxSpeed) → v = u := by
    intro hall
    refine CMileage.inverseKinematicsTrans_slow (Bool.eq_false_iff.mpr fun hf => ?_)
    obtain ⟨i, hi, hlt⟩ := (CMileage.overspeed_iff m u).mp hf
    exact absurd hlt (not_lt.mpr (hall i (by rw [← hn]; exact hi)))
  have hfast : (∃ i, i < 2 ∧ m.motorMaxSpeed < |u i|) →
      ∃ k : ℚ, 0 ≤ k ∧ k < 1 ∧ (0 < m.motorMaxSpeed → 0 < k) ∧ ∀ i, i < 2 → v i = k * u i := by
    rw [← hn]
    intro hover
    exact wheelVel_scaled hmax _ ((CMileage.overspeed_iff m u).mpr hover)
  refine ⟨?_, hslow, hfast, ?_⟩
  · obtain ⟨s', left, right, hsent, hl, hr⟩ := sendSpeedCmd_frames ht hmax hrange hd txMessage
    have hstored : ∀ i, i < 2 → |((m.drive s.chassis.planarVel).getVel i : ℚ)| ≤ m.motorMaxSpeed + 1 / 2 := by
      intro i hi
      have hle : |v i| ≤ m.motorMaxSpeed := CMileage.inverseKinematicsTrans_le hmax _ _ (by rw [hn]; exact hi)
      exact (abs_drive_le hn s.chassis.planarVel i hi).trans (add_le_add_left hle _)
    refine ⟨s', left, right, hsent, fun msg hmsg => ?_⟩
    obtain rfl | rfl : msg = left ∨ msg = right := by simpa using hmsg
    · rw [hl]
      exact hstored 0 (by decide)
    · rw [hr]
      exact hstored 1 (by decide)
  · have hratio := wheelCmd_ratio h0 h1 s.chassis.planarVel
    by_cases hall : ∀ i, i < 2 → |u i| ≤ m.motorMaxSpeed
    · rw [hslow hall]
      exact hratio
    · obtain ⟨i, hi, hlt⟩ : ∃ i, i < 2 ∧ m.motorMaxSpeed < |u i| := by
        by_contra hnone
        exact hall fun i hi => not_lt.mp fun hlt => hnone ⟨i, hi, hlt⟩
      obtain ⟨k, _, _, _, hk⟩ := hfast ⟨i, hi, hlt⟩
      rw [hk 0 (by decide), hk 1 (by decide), mul_assoc k, mul_assoc k, mul_assoc k, mul_assoc k]
      exact congrArg (k * ·) hratio

/-! ## One and a half times the limit -/

def tooFast : Devices ℚ where
  chassis :=
    { CChassisDevice.new 12 (fun _ => 0) fun _ => .null with
      driverProtocol := some (.new (.jingZhiCanopen .speedMode) 2)
      oriGlobalX := 60000 }
  mileage := { CMileage.new 0 with motorMaxSpeed := 4000 }

def blankMsg : CanTxMsg := { chId := none, chExtid := 0, chRtr := 0, chDlc := 0, cmData := fun _ => 0 }

theorem speed_limit_tooFast :
    (∃ s' left right, sendSpeedCmd tooFast (fun _ => blankMsg) = some (s', [left, right]) ∧
      ∀ msg ∈ [left, right], |(wireSpeed msg : ℚ)| ≤ 4000 + 1 / 2) ∧
    ∃ k : ℚ, 0 ≤ k ∧ k < 1 ∧ 0 < k ∧ tooFast.mileage.wheelVel tooFast.chassis.planarVel 0 = k * 6000 := by
  have hover : tooFast.mileage.wheelCmd tooFast.chassis.planarVel 0 = 6000 := by decide +kernel
  obtain ⟨hwire, _, hscaled, _⟩ := speed_limit tooFast rfl (by decide +kernel) (by decide +kernel) (by decide +kernel)
    (by decide +kernel) (.new (.jingZhiCanopen .speedMode) 2) rfl fun _ => blankMsg
  obtain ⟨k, h0, h1, hpos, hk⟩ := hscaled ⟨0, by decide, by decide +kernel⟩
  refine ⟨hwire, k, h0, h1, hpos (by decide +kernel), ?_⟩
  rw [hk 0 (by decide), hover]

end SeerDIOBoard.Chassis
