/-
  SeerDIOBoard.Chassis.DrivePath — the way out and the way back agree: what the wheels are
  told by a velocity command, the encoders report as the motion that was asked for, up to
  the rounding of the two velocities to integers.

  Four functions have to fit. `inverseKinematicsTransDiff` scales a wheel speed by
  `m_vel_reduce_scale`, which is ten times the `m_pos_reduce_rate` that
  `forwardKinematicsTransDiff` divides by, and the radius of a wheel, with the sign of its
  `Inverse` flag, is in `m_scale` on both ways. `setVelocities` and `getPositions` both turn
  the sign of the left wheel.

  `motion` is what two wheels do to the chassis, independent of all that:
  `motion_command` says that the velocities before rounding are those of the command, and
  `drive_path` that the encoders report the rounded ones.
-/

import SeerDIOBoard.Chassis.Config
import SeerDIOBoard.Lib.DiffDrive
import SeerDIOBoard.Mileage.KinematicsProofs

namespace SeerDIOBoard.Mileage

open Function (update)
open Lib.Round

/-- No `int32_t` result is cut. -/
def Arith.Exact (ar : Arith) : Prop := ∀ n, ar.int32 n = n

namespace CMileage

/-! ## The drive path -/

/-- What the loop of `CChassisDevice::report` does, with the motors at `pos`. -/
def readPos (m : CMileage) (pos : Nat → Int) : CMileage :=
  (List.range m.numOfWheel).foldl (fun m i => m.setPos i (pos i)) m

/-- The readings it then takes. -/
def reading (ar : Arith) (m : CMileage) (pos : Nat → Int) : Nat → Int := (m.readPos pos).getPositions ar fun _ => 0

/-- The speed of a wheel over ground while its motor runs at `v`, in tenths of a count a second. -/
def ground (m : CMileage) (v : Nat → ℚ) (i : Nat) : ℚ := v i * m.scale i / m.velReduceScale

/-- The motion of the chassis while the motors run at `v` for `t` seconds. -/
def motion (m : CMileage) (v : Nat → ℚ) (t : ℚ) : PlanarPos where
  x := (Lib.DiffDrive.body m.e (t * m.ground v 0) (t * m.ground v 1)).1
  y := 0
  theta := (Lib.DiffDrive.body m.e (t * m.ground v 0) (t * m.ground v 1)).2

/-- The parameters the way back reads. -/
structure SameParams (m m' : CMileage) : Prop where
  chassisType : m'.chassisType = m.chassisType
  e : m'.e = m.e
  scale : m'.scale = m.scale
  posReduceRate : m'.posReduceRate = m.posReduceRate

theorem SameParams.forward {m m' : CMileage} (h : SameParams m m') (wheelPos : Nat → ℚ) :
    m'.forwardKinematicsTransDiff wheelPos = m.forwardKinematicsTransDiff wheelPos := by
  unfold forwardKinematicsTransDiff
  rw [h.e, h.scale, h.posReduceRate]

theorem SameParams.drive {m : CMileage} (h : m.numOfWheel = 2) (planarVel : PlanarVel) :
    SameParams m (m.drive planarVel) := by
  unfold CMileage.drive
  rw [setVelocities_two h]
  exact ⟨rfl, rfl, rfl, rfl⟩

/-- What a DOUBLE_DIFF configuration has to be for the drive path. -/
structure Geared (m : CMileage) : Prop where
  chassisType : m.chassisType = doubleDiff
  e : m.e ≠ 0
  scale : ∀ i, i < 2 → m.scale i ≠ 0
  velReduceScale : m.velReduceScale ≠ 0
  tenfold : m.velReduceScale = m.posReduceRate * 10

/-! ## The two ways -/

theorem ground_left {m : CMileage} (h : Geared m) (planarVel : PlanarVel) :
    m.ground (m.wheelCmd planarVel) 0 = (Lib.DiffDrive.wheels m.e planarVel.vx planarVel.w).1 := by
  have hs := h.scale 0 (by decide)
  have hv := h.velReduceScale
  rw [ground, wheelCmd_left]
  show _ = (planarVel.vx + planarVel.vx - m.e * planarVel.w) / (1 + 1)
  field_simp
  ring

theorem ground_right {m : CMileage} (h : Geared m) (planarVel : PlanarVel) :
    m.ground (m.wheelCmd planarVel) 1 = (Lib.DiffDrive.wheels m.e planarVel.vx planarVel.w).2 := by
  have hs := h.scale 1 (by decide)
  have hv := h.velReduceScale
  rw [ground, wheelCmd_right]
  show _ = (planarVel.vx + planarVel.vx + m.e * planarVel.w) / (1 + 1)
  field_simp
  ring

/-- Before rounding the wheels are told the motion that was asked for. -/
theorem motion_command {m : CMileage} (h : Geared m) (planarVel : PlanarVel) (t : ℚ) :
    m.motion (m.wheelCmd planarVel) t = { x := planarVel.vx * t, y := 0, theta := planarVel.w * t } := by
  unfold motion
  rw [ground_left h, ground_right h, Lib.DiffDrive.body_wheels_mul h.e, mul_comm t, mul_comm t]

/-- The way back, from wheels that ran at `v`. -/
theorem forward_roll {m : CMileage} (h : Geared m) {wheelPos v : Nat → ℚ} {t : ℚ}
    (hroll : ∀ i, i < 2 → wheelPos i = t / 10 * v i) : m.forwardKinematicsTransDiff wheelPos = m.motion v t := by
  have hwheel : ∀ i, i < 2 → wheelPos i * m.scale i / m.posReduceRate = t * m.ground v i := by
    intro i hi
    rw [hroll i hi, ground, h.tenfold, mul_comm m.posReduceRate, ← div_div]
    ring
  have h0 := hwheel 0 (by decide)
  have h1 := hwheel 1 (by decide)
  unfold forwardKinematicsTransDiff motion Lib.DiffDrive.body
  simp only [h0, h1, mul_one_div, one_add_one_eq_two]

theorem readPos_two {m : CMileage} (h : m.numOfWheel = 2) (pos : Nat → Int) :
    m.readPos pos = { m with pos := update (update m.pos 0 (pos 0)) 1 (pos 1) } := by
  rw [readPos, h]
  rfl

theorem readPos_numOfWheel {m : CMileage} (h : m.numOfWheel = 2) (pos : Nat → Int) :
    (m.readPos pos).numOfWheel = 2 := by
  rw [readPos_two h]
  exact h

theorem reading_left {m : CMileage} (h : m.numOfWheel = 2) {ar : Arith} (har : ar.Exact) (pos : Nat → Int) :
    m.reading ar pos 0 = -(m.inverse * pos 0) := by
  rw [reading, getPositions_left (readPos_numOfWheel h pos), har, readPos_two h]
  show -1 * m.inverse * pos 0 = -(m.inverse * pos 0)
  ring

theorem reading_right {m : CMileage} (h : m.numOfWheel = 2) {ar : Arith} (har : ar.Exact) (pos : Nat → Int) :
    m.reading ar pos 1 = m.inverse * pos 1 := by
  rw [reading, getPositions_right (readPos_numOfWheel h pos), har, readPos_two h]
  rfl

/-- The encoders report the velocities the wheels were told, in the sign of the command. -/
theorem wheelDelta_drive {m : CMileage} (h : m.numOfWheel = 2) {ar : Arith} (har : ar.Exact) (wheelvel : Nat → ℚ)
    {t : ℚ} {pos pos' : Nat → Int}
    (hadv : ∀ i, i < 2 → (pos' i : ℚ) - pos i = t / 10 * (m.setVelocities wheelvel).getVel i) :
    ∀ i, i < 2 → (wheelDelta ar ((m.setVelocities wheelvel).reading ar pos') ((m.setVelocities wheelvel).reading ar pos)
      i : ℚ) = t / 10 * halfAway (wheelvel i) := by
  have hn : (m.setVelocities wheelvel).numOfWheel = 2 := by rw [setVelocities_two h]; exact h
  have hinv : (m.setVelocities wheelvel).inverse = m.inverse := by rw [setVelocities_two h]
  have hsquare : (m.inverse : ℚ) * m.inverse = 1 := by exact_mod_cast m.inverse_mul_self
  intro i hi
  obtain rfl | rfl : i = 0 ∨ i = 1 := by omega
  · have h0 := hadv 0 (by decide)
    rw [getVel, setVelocities_left h] at h0
    rw [wheelDelta, har, reading_left hn har, reading_left hn har, hinv]
    push_cast at h0 ⊢
    calc -((m.inverse : ℚ) * pos' 0) - -(m.inverse * pos 0) = -m.inverse * (pos' 0 - pos 0) := by ring
      _ = t / 10 * ((m.inverse * m.inverse) * halfAway (wheelvel 0)) := by rw [h0]; ring
      _ = t / 10 * halfAway (wheelvel 0) := by rw [hsquare, one_mul]
  · have h1 := hadv 1 (by decide)
    rw [getVel, setVelocities_right h] at h1
    rw [wheelDelta, har, reading_right hn har, reading_right hn har, hinv]
    push_cast at h1 ⊢
    calc (m.inverse : ℚ) * pos' 1 - m.inverse * pos 1 = m.inverse * (pos' 1 - pos 1) := by ring
      _ = t / 10 * ((m.inverse * m.inverse) * halfAway (wheelvel 1)) := by rw [h1]; ring
      _ = t / 10 * halfAway (wheelvel 1) := by rw [hsquare, one_mul]

end CMileage

end SeerDIOBoard.Mileage

namespace SeerDIOBoard.Chassis

open SeerDIOBoard.Can SeerDIOBoard.Mileage
open Lib.Round

/-! ## Configured by 0xA005 -/

theorem sign_cast_ne_zero (inverse : Bool) : (CMileage.sign inverse : ℚ) ≠ 0 := by
  rcases CMileage.sign_unit inverse with h | h
  · simp [h]
  · simp [h]

theorem geared_of_config {F : Type} {ar : Arith} (har : ar.Exact) {s s' : Devices F} {pbMsg : ChassisConfig}
    (ht : s.mileage.chassisType = doubleDiff) (hconf : initializeParamBy ar.int32 s (some pbMsg) = some (0, s'))
    (he : pbMsg.e ≠ 0) (hlines : pbMsg.encoderLines ≠ 0) (hratio : pbMsg.reductionRatio ≠ 0)
    (hr : ∀ i, i < 2 → if i < pbMsg.driveID.length then pbMsg.r i ≠ 0 else s.mileage.scale i ≠ 0) :
    s'.mileage.Geared := by
  obtain ⟨inv, hm⟩ := initializeParamBy_mileage (by rw [ht]; decide) hconf
  have hcounts : ((ar.int32 (pbMsg.encoderLines * 4) : Int) : ℚ) ≠ 0 := by
    rw [har]
    exact_mod_cast mul_ne_zero hlines (by decide)
  rw [hm]
  refine ⟨ht, div_ne_zero he (by norm_num), fun i hi => ?_, ?_, rfl⟩
  · show scaled pbMsg 0 pbMsg.driveID.length s.mileage.scale i ≠ 0
    have hi := hr i hi
    unfold scaled
    split at hi
    case isTrue hlt =>
      rw [if_pos ⟨Nat.zero_le i, by omega⟩]
      have hpi : (pi : ℚ) ≠ 0 := by norm_num [pi]
      exact mul_ne_zero (div_ne_zero (mul_ne_zero (mul_ne_zero two_ne_zero hpi) hi) (by norm_num)) (sign_cast_ne_zero _)
    case isFalse hge =>
      rw [if_neg (by omega)]
      exact hi
  · exact mul_ne_zero (mul_ne_zero hcounts hratio) (by norm_num)

theorem drive_path {F : Type} (ar : Arith) (har : ar.Exact) (s s' : Devices F) (pbMsg : ChassisConfig)
    (ht : s.mileage.chassisType = doubleDiff) (hconf : initializeParamBy ar.int32 s (some pbMsg) = some (0, s'))
    (he : pbMsg.e ≠ 0) (hlines : pbMsg.encoderLines ≠ 0) (hratio : pbMsg.reductionRatio ≠ 0)
    (hr : ∀ i, i < 2 → if i < pbMsg.driveID.length then pbMsg.r i ≠ 0 else s.mileage.scale i ≠ 0)
    (planarVel : PlanarVel) (hspeed : (s'.mileage.overspeed (s'.mileage.wheelCmd planarVel)).1 = false) (t : ℚ)
    (pos pos' : Nat → Int)
    (hadv : ∀ i, i < 2 → (pos' i : ℚ) - pos i = t / 10 * (s'.mileage.drive planarVel).getVel i) :
    let m := s'.mileage.drive planarVel
    let u := s'.mileage.wheelCmd planarVel
    let delta := CMileage.wheelDelta ar (m.reading ar pos') (m.reading ar pos)
    ∃ e : Nat → ℚ, (∀ i, |e i| ≤ 1 / 2) ∧
      m.forwardKinematicsTransDiff (fun i => delta i) = s'.mileage.motion (fun i => u i + e i) t ∧
      s'.mileage.motion u t = { x := planarVel.vx * t, y := 0, theta := planarVel.w * t } ∧
      ∀ (m' : CMileage) (planarPos : PlanarPos), CMileage.SameParams m m' → m'.firstIn = false →
        (∀ i, i < 2 → m'.staticP i = m.reading ar pos i) → (∀ i, i < 2 → |delta i| ≤ CMileage.encoderMaxDiff) →
        ∃ m'', CMileage.doCalc ar planarPos m' (m.reading ar pos') = (0, m'') ∧
          PlanarPos.mk m''.deltaX m''.deltaY m''.deltaAngle = s'.mileage.motion (fun i => u i + e i) t := by
  have hg := geared_of_config har ht hconf he hlines hratio hr
  have hn := CMileage.numOfWheel_diff hg.chassisType
  have hsame := CMileage.SameParams.drive hn planarVel
  have hu : s'.mileage.drive planarVel = s'.mileage.setVelocities (s'.mileage.wheelCmd planarVel) :=
    congrArg s'.mileage.setVelocities (CMileage.inverseKinematicsTrans_slow hspeed)
  have hdelta : ∀ i, i < 2 →
      (CMileage.wheelDelta ar ((s'.mileage.drive planarVel).reading ar pos')
        ((s'.mileage.drive planarVel).reading ar pos) i : ℚ) =
      t / 10 * (s'.mileage.wheelCmd planarVel i + (halfAway (s'.mileage.wheelCmd planarVel i) -
        s'.mileage.wheelCmd planarVel i)) := by
    intro i hi
    rw [add_sub_cancel]
    rw [hu] at hadv ⊢
    exact CMileage.wheelDelta_drive hn har _ hadv i hi
  refine ⟨fun i => halfAway (s'.mileage.wheelCmd planarVel i) - s'.mileage.wheelCmd planarVel i,
    fun i => abs_halfAway_sub_le _, ?_, CMileage.motion_command hg planarVel t, ?_⟩
  · rw [hsame.forward]
    exact CMileage.forward_roll hg hdelta
  · intro m' planarPos hpar hfirst hstatic hjump
    have htype : m'.chassisType = doubleDiff := by rw [hpar.chassisType, hsame.chassisType, hg.chassisType]
    have hwheels := CMileage.numOfWheel_diff htype
    have hread : ∀ i, i < 2 → CMileage.wheelDelta ar ((s'.mileage.drive planarVel).reading ar pos') m'.staticP i =
        CMileage.wheelDelta ar ((s'.mileage.drive planarVel).reading ar pos')
          ((s'.mileage.drive planarVel).reading ar pos) i := by
      intro i hi
      rw [CMileage.wheelDelta, CMileage.wheelDelta, hstatic i hi]
    obtain ⟨sp, st, wheelPos, heq, hpos⟩ := CMileage.doCalc_ok ar planarPos m'
      ((s'.mileage.drive planarVel).reading ar pos') hfirst fun i hi => by
        rw [hwheels] at hi
        rw [hread i hi]
        exact hjump i hi
    refine ⟨_, heq, ?_⟩
    show m'.forwardKinematicsTrans wheelPos planarPos = _
    rw [CMileage.forwardKinematicsTrans, if_pos htype.symm, hpar.forward, hsame.forward]
    refine CMileage.forward_roll hg fun i hi => ?_
    rw [(hpos i (by rw [hwheels]; exact hi)).1, hread i hi]
    exact hdelta i hi

/-! ## A turn to the left -/

/-- Two motors, the first one mounted the other way round. -/
def motorsMirrored : ChassisConfig where
  e := 500
  r _ := 100
  driveID := [3, 4]
  driveID_le := by decide
  encoderLines := 2500
  reductionRatio := 20
  motorMaxSpeedRpm := 3000
  inverse i := decide (i = 0)

def exact : Arith := { int32 := id, cos := fun _ => 1, sin := id, pi := pi, pi_pos := by norm_num [pi] }

def driver : CDriverCanProtocol := .new (.copleyCAN .speedMode) 2

def fresh : Devices ℚ where
  chassis := { CChassisDevice.new 2 (fun _ => 0) fun _ => .null with driverProtocol := some driver }
  mileage := .new 0

def mirrored : Devices ℚ where
  chassis :=
    { fresh.chassis with
      driverProtocol := some (configMotor motorsMirrored 1 4 (configMotor motorsMirrored 0 3 driver)) }
  mileage :=
    (((fresh.mileage.doInit.setParam id motorsMirrored).setWheel motorsMirrored 0).setWheel motorsMirrored 1).setInited

def leftTurn : PlanarVel := { vx := 1, vy := 0, w := 1 / 2 }

/-- Ten seconds of it. -/
theorem drive_path_leftTurn :
    let m := mirrored.mileage.drive leftTurn
    ∃ e : Nat → ℚ, (∀ i, |e i| ≤ 1 / 2) ∧
      m.forwardKinematicsTransDiff (fun i => CMileage.wheelDelta exact (m.reading exact m.getVel) (m.reading exact 0) i) =
        mirrored.mileage.motion (fun i => mirrored.mileage.wheelCmd leftTurn i + e i) 10 ∧
      mirrored.mileage.motion (mirrored.mileage.wheelCmd leftTurn) 10 = { x := 10, y := 0, theta := 5 } := by
  intro m
  have hspeed : (mirrored.mileage.overspeed (mirrored.mileage.wheelCmd leftTurn)).1 = false := by decide +kernel
  obtain ⟨e, he, hforward, hcommand, _⟩ := drive_path exact (fun _ => rfl) fresh mirrored motorsMirrored rfl rfl
    (show (500 : ℚ) ≠ 0 by norm_num) (show (2500 : Int) ≠ 0 by decide) (show (20 : ℚ) ≠ 0 by norm_num)
    (fun i hi => by
      rw [if_pos (show i < motorsMirrored.driveID.length from hi)]
      exact show (100 : ℚ) ≠ 0 by norm_num)
    leftTurn hspeed 10 0 m.getVel (fun i _ => by
      rw [Pi.zero_apply, Int.cast_zero, sub_zero, div_self (by norm_num), one_mul])
  refine ⟨e, he, hforward, hcommand.trans ?_⟩
  norm_num [leftTurn]

end SeerDIOBoard.Chassis
