/-
  SeerDIOBoard.Mileage.Kinematics — the drive path of `CMileage` (src/Mileage.cxx): from a
  velocity command to the integer velocities of the motors (`inverseKinematicsTrans`,
  `setVelocities`), and from the motors' positions to the pose (`getPositions`, `doCalc`).

  Floats are exact rationals. What the source leaves to the machine is `Arith`: what becomes
  of an `int32_t` result, the math library, and the constant `PI`. An array of the source is
  a function of the index, `WheelVel` and `WheelPos` zero where nothing was written. A local
  that is not initialised is an argument.

  `doCalc` is one encoder sample. Its loop over the wheels compares each reading with the
  last one and stops at a wheel that jumped.
-/

import Mathlib.Data.Rat.Floor
import SeerDIOBoard.Lib.Round
import SeerDIOBoard.Mileage.Param

namespace SeerDIOBoard.Mileage

open Function (update)
open Lib.Round

structure Arith where
  int32 : Int → Int
  cos : ℚ → ℚ
  sin : ℚ → ℚ
  pi : ℚ
  pi_pos : 0 < pi

structure PlanarVel where
  vx : ℚ
  vy : ℚ
  w : ℚ
  deriving DecidableEq, Repr

@[ext] structure PlanarPos where
  x : ℚ
  y : ℚ
  theta : ℚ
  deriving DecidableEq, Repr

namespace CMileage

/-! ## From a command to the motors -/

def inverseKinematicsTransDiff (m : CMileage) (planarVel : PlanarVel) (wheelVel : Nat → ℚ) : Nat → ℚ :=
  let lWheelVel := (2 * planarVel.vx - m.e * planarVel.w) * (1 / 2)
  let rWheelVel := (2 * planarVel.vx + m.e * planarVel.w) * (1 / 2)
  update (update wheelVel 0 (m.velReduceScale * lWheelVel / m.scale 0)) 1 (m.velReduceScale * rWheelVel / m.scale 1)

/-- A turn of the loop that looks for wheels over the limit, on `overspeedFlag` and `maxSpeed`. -/
def checkSpeed (m : CMileage) (s : Bool × ℚ) (wheelVel : ℚ) : Bool × ℚ :=
  let tempVel := if 0 < wheelVel then wheelVel else -1 * wheelVel
  if m.motorMaxSpeed < tempVel then (true, if s.2 < tempVel then tempVel else s.2) else s

def overspeed (m : CMileage) (wheelVel : Nat → ℚ) : Bool × ℚ :=
  ((List.range m.numOfWheel).map wheelVel).foldl m.checkSpeed (false, 0)

def inverseKinematicsTrans (m : CMileage) (planarVel : PlanarVel) (wheelVel : Nat → ℚ) : Nat → ℚ :=
  let wheelVel := m.inverseKinematicsTransDiff planarVel wheelVel
  let (overspeedFlag, maxSpeed) := m.overspeed wheelVel
  if overspeedFlag then
    fun i => if i < m.numOfWheel then wheelVel i * (m.motorMaxSpeed / maxSpeed) else wheelVel i
  else wheelVel

/-- The conversion of `temp_wheelvel` to `int32_t` cuts the fraction off. -/
def setVelocities (m : CMileage) (wheelvel : Nat → ℚ) : CMileage :=
  let temp i := if i < m.numOfWheel then nudge (wheelvel i) else 0
  if 2 = m.numOfWheel then
    { m with vel := update (update m.vel 0 (trunc (temp 0 * -1 * m.inverse))) 1 (trunc (temp 1 * m.inverse)) }
  else if 3 = m.numOfWheel then
    { m with vel := fun i => if i < 3 then trunc (temp i * m.inverse) else m.vel i }
  else if 4 = m.numOfWheel then
    { m with vel := fun i =>
        if i = 0 ∨ i = 3 then trunc (temp i * m.inverse)
        else if i = 1 ∨ i = 2 then trunc (-1 * temp i * m.inverse) else m.vel i }
  else m

def getVel (m : CMileage) (idx : Nat) : Int := m.vel idx

/-- The wheel velocities of a command, before the limiter and the rounding. -/
def wheelCmd (m : CMileage) (planarVel : PlanarVel) : Nat → ℚ := m.inverseKinematicsTransDiff planarVel fun _ => 0

/-- The same after the limiter. -/
def wheelVel (m : CMileage) (planarVel : PlanarVel) : Nat → ℚ := m.inverseKinematicsTrans planarVel fun _ => 0

/-- What `sendSpeedCmd` does to the mileage object. -/
def drive (m : CMileage) (planarVel : PlanarVel) : CMileage := m.setVelocities (m.wheelVel planarVel)

/-! ## From the motors to the pose -/

def getPositions (ar : Arith) (m : CMileage) (wheelpos : Nat → Int) : Nat → Int :=
  if 2 = m.numOfWheel then
    update (update wheelpos 0 (ar.int32 (-1 * m.inverse * m.pos 0))) 1 (ar.int32 (m.inverse * m.pos 1))
  else if 3 = m.numOfWheel then fun i => if i < 3 then ar.int32 (m.inverse * m.pos i) else wheelpos i
  else if 4 = m.numOfWheel then fun i =>
    if i = 0 ∨ i = 3 then ar.int32 (m.inverse * m.pos i)
    else if i = 1 ∨ i = 2 then ar.int32 (-1 * m.inverse * m.pos i) else wheelpos i
  else wheelpos

def forwardKinematicsTransDiff (m : CMileage) (wheelPos : Nat → ℚ) : PlanarPos :=
  let lWheelPos := wheelPos 0 * m.scale 0 / m.posReduceRate
  let rWheelPos := wheelPos 1 * m.scale 1 / m.posReduceRate
  { x := (rWheelPos + lWheelPos) * (1 / 2), y := 0, theta := (rWheelPos - lWheelPos) / m.e }

/-- The other chassis types leave `planarPos` as it was. -/
def forwardKinematicsTrans (m : CMileage) (wheelPos : Nat → ℚ) (planarPos : PlanarPos) : PlanarPos :=
  if doubleDiff = m.chassisType then m.forwardKinematicsTransDiff wheelPos else planarPos

def encoderMaxDiff : Int := 2000000

/-- The first `n` entries of `p` copied over `staticP`. -/
def copyWheels (n : Nat) (p staticP : Nat → Int) (i : Nat) : Int := if i < n then p i else staticP i

/-- What a turn of the loop leaves of a wheel that did not jump. -/
def moveWheel (m : CMileage) (i : Nat) (p delta : Int) : CMileage :=
  { m with
    staticP := update m.staticP i p
    stopped := if m.criticalDelta < |(delta : ℚ)| then false else m.stopped }

/-- The loop of `doCalc` from wheel `i` on (`k` wheels left), on the object and `wheelPos`;
    `false` where it stops at a wheel that jumped. -/
def diffWheels (ar : Arith) (p : Nat → Int) : Nat → Nat → CMileage → (Nat → ℚ) → Bool × CMileage × (Nat → ℚ)
  | 0, _, m, wheelPos => (true, m, wheelPos)
  | k + 1, i, m, wheelPos =>
    let delta := ar.int32 (p i - m.staticP i)
    if encoderMaxDiff < |delta| then (false, { m with staticP := copyWheels m.numOfWheel p m.staticP }, wheelPos)
    else diffWheels ar p k (i + 1) (m.moveWheel i (p i) delta) (update wheelPos i delta)

/-- `while (m_angle <= -PI) m_angle += 2 * PI`. -/
def raiseAngle (ar : Arith) (angle : ℚ) : ℚ :=
  if angle ≤ -ar.pi then raiseAngle ar (angle + 2 * ar.pi) else angle
termination_by (⌊(-ar.pi - angle) / (2 * ar.pi)⌋ + 1).toNat
decreasing_by
  have hpi := ar.pi_pos
  have hq : 0 ≤ (-ar.pi - angle) / (2 * ar.pi) := div_nonneg (by linarith) (by linarith)
  have hstep : (-ar.pi - (angle + 2 * ar.pi)) / (2 * ar.pi) = (-ar.pi - angle) / (2 * ar.pi) - 1 := by
    rw [← sub_sub, sub_div, div_self (by linarith)]
  have hfloor := Int.floor_nonneg.mpr hq
  rw [hstep, Int.floor_sub_one]
  omega

/-- `while (m_angle > PI) m_angle -= 2 * PI`. -/
def lowerAngle (ar : Arith) (angle : ℚ) : ℚ :=
  if ar.pi < angle then lowerAngle ar (angle - 2 * ar.pi) else angle
termination_by (⌈(angle - ar.pi) / (2 * ar.pi)⌉).toNat
decreasing_by
  have hpi := ar.pi_pos
  have hq : 0 < (angle - ar.pi) / (2 * ar.pi) := div_pos (by linarith) (by linarith)
  have hstep : (angle - 2 * ar.pi - ar.pi) / (2 * ar.pi) = (angle - ar.pi) / (2 * ar.pi) - 1 := by
    rw [sub_right_comm, sub_div, div_self (by linarith)]
  have hceil := Int.ceil_pos.mpr hq
  rw [hstep, Int.ceil_sub_one]
  omega

/-- The end of `doCalc`. -/
def addPose (ar : Arith) (m : CMileage) (planarPos : PlanarPos) : CMileage :=
  { m with
    deltaX := planarPos.x
    deltaY := planarPos.y
    deltaAngle := planarPos.theta
    x := m.x + (planarPos.x * ar.cos m.angle - planarPos.y * ar.sin m.angle)
    y := m.y + (planarPos.x * ar.sin m.angle + planarPos.y * ar.cos m.angle)
    angle := lowerAngle ar (raiseAngle ar (m.angle + planarPos.theta)) }

/-- `doCalc` and what it returns. `planarPos` is the local it starts with. -/
def doCalc (ar : Arith) (planarPos : PlanarPos) (m : CMileage) (p : Nat → Int) : Int × CMileage :=
  if true = m.firstIn then (1, { m with firstIn := false, staticP := copyWheels m.numOfWheel p m.staticP })
  else
    match diffWheels ar p m.numOfWheel 0 m fun _ => 0 with
    | (false, m, _) => (2, m)
    | (true, m, wheelPos) => (0, m.addPose ar (m.forwardKinematicsTrans wheelPos planarPos))

end CMileage

end SeerDIOBoard.Mileage
