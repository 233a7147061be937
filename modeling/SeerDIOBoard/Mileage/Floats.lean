/-
  SeerDIOBoard.Mileage.Floats — the parameters of `CMileage` (src/Mileage.cxx), what is
  divided by them, and the angle of the odometer, in `float` and `double` as the board
  computes them.

  The functions are those of SeerDIOBoard.Mileage.Param and .Kinematics, which are in exact
  rationals. Here every operation is rounded on its own, to the format that C gives it, and
  of the object there is only what the divisors and the angle depend on: no position, no
  speed of a motor, no `is_stop`. A constant and the `double` of an `int32_t` are exact.

  The two loops that bring the angle into its range may go on for ever, so they have a number
  of turns they may make (`fuel`).
-/

import SeerDIOBoard.Lib.Ieee
import SeerDIOBoard.Mileage.Kinematics

namespace SeerDIOBoard.Mileage.Floats

open Function (update)
open Lib.Ieee
open SeerDIOBoard.Can

def single (v : Val) : Val := binary32.round v

def double (v : Val) : Val := binary64.round v

/-- `PI`, a `double`. -/
def PI : Val := double (.fin pi)

/-! ## The parameters -/

/-- What the mileage object reads of the 0xA005 message. -/
structure ChassisConfig where
  e : Val
  r : Nat → Val
  driveIDCount : Nat
  encoderLines : Int
  reductionRatio : Val
  motorMaxSpeedRpm : Int
  inverse : Nat → Bool
  e_single : single e = e
  r_single : ∀ i, single (r i) = r i
  reductionRatio_single : single reductionRatio = reductionRatio

/-- `1.0 * rpm / 60 * 4 * lines * 10`. -/
def speedLimit (rpm lines : Val) : Val :=
  single (double (double (double (double (double (.ofInt 1 * rpm) / .ofInt 60) * .ofInt 4) * lines) * .ofInt 10))

namespace ChassisConfig

/-- `encoderLines * 4 * reductionRatio`. -/
def posReduceRate (pbMsg : ChassisConfig) : Val :=
  single (single (.ofInt (toInt32 (pbMsg.encoderLines * 4))) * pbMsg.reductionRatio)

def motorMaxSpeed (pbMsg : ChassisConfig) : Val := speedLimit (.ofInt pbMsg.motorMaxSpeedRpm) (.ofInt pbMsg.encoderLines)

/-- `2.0f * PI * R[i] / 1000.0f * temp`. -/
def wheelScale (pbMsg : ChassisConfig) (i : Nat) : Val :=
  let temp := Val.ofInt (CMileage.sign (pbMsg.inverse i))
  single (double (double (double (double (.ofInt 2 * PI) * pbMsg.r i) / .ofInt 1000) * temp))

end ChassisConfig

structure CMileage where
  angle : Val
  firstIn : Bool
  chassisType : Int
  e : Val
  scale : Nat → Val
  velReduceScale : Val
  posReduceRate : Val
  motorMaxSpeed : Val
  staticP : Nat → Int
  paramInited : Bool

/-- The constructor. -/
def CMileage.new : CMileage where
  angle := 0
  firstIn := true
  chassisType := doubleDiff
  e := .ofInt 500
  scale _ := .ofInt 20000
  velReduceScale := .ofInt 2000
  posReduceRate := .ofInt 200
  motorMaxSpeed := 0
  staticP _ := 0
  paramInited := false

namespace CMileage

def numOfWheel (m : CMileage) : Nat := Mileage.numOfWheel m.chassisType

def setChassisType (m : CMileage) (type : Int) : CMileage := { m with chassisType := type }

def reset (m : CMileage) : CMileage := { m with angle := 0, firstIn := true }

def doInit (m : CMileage) : CMileage := reset m

def setParam (m : CMileage) (pbMsg : ChassisConfig) : CMileage :=
  { m with
    e := single (pbMsg.e / .ofInt 1000)
    motorMaxSpeed := pbMsg.motorMaxSpeed
    velReduceScale := single (pbMsg.posReduceRate * .ofInt 10)
    posReduceRate := pbMsg.posReduceRate }

/-- The first `n` turns of the loop over the motors. -/
def setWheels (m : CMileage) (pbMsg : ChassisConfig) : Nat → CMileage
  | 0 => m
  | n + 1 => { setWheels m pbMsg n with scale := update (setWheels m pbMsg n).scale n (pbMsg.wheelScale n) }

/-- `none` where it goes through `Protocol()` with no driver. -/
def initializeParam (hasDriver : Bool) (m : CMileage) : Option ChassisConfig → Option (Int × CMileage)
  | none => some (-1, m.doInit)
  | some pbMsg =>
    let m := m.doInit.setParam pbMsg
    if singleSteerPrec = m.chassisType then some (0, { m with paramInited := true })
    else if hasDriver = false ∧ 0 < pbMsg.driveIDCount then none
    else some (0, { m.setWheels pbMsg pbMsg.driveIDCount with paramInited := true })

/-! ## From a command to the wheels -/

def inverseKinematicsTransDiff (m : CMileage) (vx w : Val) : Nat → Val :=
  let forward := single (.ofInt 2 * vx)
  let lWheelVel := single (single (forward - single (m.e * w)) * .fin (1 / 2))
  let rWheelVel := single (single (forward + single (m.e * w)) * .fin (1 / 2))
  update (update (fun _ => 0) 0 (single (single (m.velReduceScale * lWheelVel) / m.scale 0))) 1
    (single (single (m.velReduceScale * rWheelVel) / m.scale 1))

/-- A turn of the limiter's loop, on `overspeedFlag` and `maxSpeed`. -/
def checkSpeed (m : CMileage) (s : Bool × Val) (wheelVel : Val) : Bool × Val :=
  let tempVel := if Val.lt 0 wheelVel then wheelVel else single (.ofInt (-1) * wheelVel)
  if Val.lt m.motorMaxSpeed tempVel then (true, if Val.lt s.2 tempVel then tempVel else s.2) else s

def overspeed (m : CMileage) (wheelVel : Nat → Val) : Bool × Val :=
  ((List.range m.numOfWheel).map wheelVel).foldl m.checkSpeed (false, 0)

/-! ## From the encoders to the angle -/

def Fabs (v : Val) : Val := if Val.le 0 v then v else single (double (.ofInt (-1) * v))

/-- An encoder that moved so far is not believed. -/
def jumps (delta : Int) : Bool := Val.lt (.ofInt Mileage.CMileage.encoderMaxDiff) (Fabs (single (.ofInt delta)))

/-- The loop of `doCalc` from wheel `i` on (`k` wheels left), on the object and `wheelPos`;
    `false` where it stops at a wheel that jumped. -/
def diffWheels (p : Nat → Int) : Nat → Nat → CMileage → (Nat → Val) → Bool × CMileage × (Nat → Val)
  | 0, _, m, wheelPos => (true, m, wheelPos)
  | k + 1, i, m, wheelPos =>
    let delta := toInt32 (p i - m.staticP i)
    if jumps delta then
      (false, { m with staticP := Mileage.CMileage.copyWheels m.numOfWheel p m.staticP }, wheelPos)
    else
      diffWheels p k (i + 1) { m with staticP := update m.staticP i (p i) } (update wheelPos i (single (.ofInt delta)))

/-- `planarPos.theta`. -/
def forwardKinematicsTransDiff (m : CMileage) (wheelPos : Nat → Val) : Val :=
  let lWheelPos := single (single (wheelPos 0 * m.scale 0) / m.posReduceRate)
  let rWheelPos := single (single (wheelPos 1 * m.scale 1) / m.posReduceRate)
  single (single (rWheelPos - lWheelPos) / m.e)

/-- The other chassis types leave `theta` as it was. -/
def forwardKinematicsTrans (m : CMileage) (wheelPos : Nat → Val) (theta : Val) : Val :=
  if doubleDiff = m.chassisType then m.forwardKinematicsTransDiff wheelPos else theta

/-- `doCalc` up to its two loops: what it returns there, 0 where it goes on to them. `theta`
    is the memory that `planarPos` starts with. -/
def addTheta (theta : Val) (m : CMileage) (p : Nat → Int) : Int × CMileage :=
  if true = m.firstIn then
    (1, { m with firstIn := false, staticP := Mileage.CMileage.copyWheels m.numOfWheel p m.staticP })
  else
    match diffWheels p m.numOfWheel 0 m fun _ => 0 with
    | (false, m, _) => (2, m)
    | (true, m, wheelPos) => (0, { m with angle := single (m.angle + m.forwardKinematicsTrans wheelPos theta) })

/-- `while (m_angle <= -PI) m_angle += 2 * PI`. -/
def raiseAngle : Nat → Val → Option Val
  | 0, _ => none
  | fuel + 1, angle =>
    if Val.le angle (-PI) then raiseAngle fuel (single (double (angle + double (.ofInt 2 * PI)))) else some angle

/-- `while (m_angle > PI) m_angle -= 2 * PI`. -/
def lowerAngle : Nat → Val → Option Val
  | 0, _ => none
  | fuel + 1, angle =>
    if Val.lt PI angle then lowerAngle fuel (single (double (angle - double (.ofInt 2 * PI)))) else some angle

/-- The two loops. -/
def normalise (fuel : Nat) (angle : Val) : Option Val := (raiseAngle fuel angle).bind (lowerAngle fuel)

def doCalc (fuel : Nat) (theta : Val) (m : CMileage) (p : Nat → Int) : Option (Int × CMileage) :=
  let (r, m) := addTheta theta m p
  if r = 0 then (normalise fuel m.angle).map fun angle => (0, { m with angle := angle }) else some (r, m)

end CMileage

end SeerDIOBoard.Mileage.Floats
