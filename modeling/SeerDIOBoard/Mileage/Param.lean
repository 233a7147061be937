/-
  SeerDIOBoard.Mileage.Param — the mileage object (`CMileage`, src/Mileage.h,
  src/Mileage.cxx) as far as its configuration goes: the chassis type with the number of
  wheels it stands for, and the kinematic parameters.

  The chassis type is the cast of an arbitrary `int32_t`. Floats are exact rationals;
  `encoderLines * 4` is an `int32_t`. `m_inverse` is a sign in every object that is built.
-/

import Mathlib.Algebra.Order.Field.Rat
import SeerDIOBoard.Can.Driver

namespace SeerDIOBoard.Mileage

open Function (update)
open SeerDIOBoard.Can

/-! ## Chassis types -/

def doubleDiff : Int := 1
def tricycle : Int := 2
def quadMacnum : Int := 3
def singleSteerPrec : Int := 4
def singleSteerAfter : Int := 5
def doubleSteer : Int := 6
def quadSteer : Int := 7
def quadDiff : Int := 8

/-- `num_of_wheel`. -/
def numOfWheel (chassisType : Int) : Nat :=
  if doubleDiff = chassisType then 2
  else if tricycle = chassisType then 3
  else if quadMacnum = chassisType then 4
  else if singleSteerPrec = chassisType then 1
  else if singleSteerAfter = chassisType then 1
  else if doubleSteer = chassisType then 2
  else if quadSteer = chassisType then 4
  else if quadDiff = chassisType then 4
  else 0

theorem numOfWheel_le (t : Int) : numOfWheel t ≤ 4 := by
  unfold numOfWheel
  repeat' split
  all_goals omega

/-! ## The parameters -/

/-- The 0xA005 message. `R` and `Inverse` are zero from their own counts on, and read up
    to the count of `driveID`. -/
structure ChassisConfig where
  e : ℚ
  r : Nat → ℚ
  driveID : List Int
  driveID_le : driveID.length ≤ 4
  encoderLines : Int
  reductionRatio : ℚ
  motorMaxSpeedRpm : Int
  inverse : Nat → Bool

def ChassisConfig.initZero : ChassisConfig where
  e := 0
  r _ := 0
  driveID := []
  driveID_le := Nat.zero_le _
  encoderLines := 0
  reductionRatio := 0
  motorMaxSpeedRpm := 0
  inverse _ := false

def pi : ℚ := 31415926 / 10000000

structure CMileage where
  x : ℚ
  y : ℚ
  angle : ℚ
  firstIn : Bool
  chassisType : Int
  e : ℚ
  scale : Nat → ℚ
  velReduceScale : ℚ
  posReduceRate : ℚ
  motorMaxSpeedRpm : Int
  motorMaxSpeed : ℚ
  encoderLines : Int
  vel : Nat → Int
  pos : Nat → Int
  staticP : Nat → Int
  inverse : Int
  inverse_unit : inverse = 1 ∨ inverse = -1
  invOne : Nat → Int
  stopped : Bool
  deltaX : ℚ
  deltaY : ℚ
  deltaAngle : ℚ
  paramInited : Bool
  /-- The file's static `critical_delta`. -/
  criticalDelta : ℚ

/-- The constructor. `m_encoder_lines` is left as the memory is. -/
def CMileage.new (encoderLines : Int) : CMileage where
  x := 0
  y := 0
  angle := 0
  firstIn := true
  chassisType := doubleDiff
  e := 500
  scale _ := 20000
  velReduceScale := 2000
  posReduceRate := 200
  motorMaxSpeedRpm := 0
  motorMaxSpeed := 0
  encoderLines := encoderLines
  vel _ := 0
  pos _ := 0
  staticP _ := 0
  inverse := 1
  inverse_unit := .inl rfl
  invOne _ := 1
  stopped := true
  deltaX := 0
  deltaY := 0
  deltaAngle := 0
  paramInited := false
  criticalDelta := 11 / 10

namespace CMileage

def numOfWheel (m : CMileage) : Nat := Mileage.numOfWheel m.chassisType

def setChassisType (m : CMileage) (type : Int) : CMileage := { m with chassisType := type }

def setPos (m : CMileage) (idx : Nat) (pos : Int) : CMileage := { m with pos := update m.pos idx pos }

def reset (m : CMileage) : CMileage := { m with x := 0, y := 0, angle := 0, firstIn := true }

def doInit (m : CMileage) : CMileage := reset m

/-- The sign a flag of `Inverse` stands for. -/
def sign (inverse : Bool) : Int := if inverse then -1 else 1

theorem sign_unit (inverse : Bool) : sign inverse = 1 ∨ sign inverse = -1 := by
  cases inverse with
  | false => exact .inl rfl
  | true => exact .inr rfl

/-- The part of `initializeParam` before the motors. `int32` is what becomes of an
    `int32_t` result: `toInt32` on the board. -/
def setParam (int32 : Int → Int) (m : CMileage) (pbMsg : ChassisConfig) : CMileage :=
  let posReduceRate := int32 (pbMsg.encoderLines * 4) * pbMsg.reductionRatio
  { m with
    e := pbMsg.e / 1000
    motorMaxSpeedRpm := pbMsg.motorMaxSpeedRpm
    encoderLines := pbMsg.encoderLines
    motorMaxSpeed := (pbMsg.motorMaxSpeedRpm : ℚ) / 60 * 4 * pbMsg.encoderLines * 10
    velReduceScale := int32 (pbMsg.encoderLines * 4) * pbMsg.reductionRatio * 10
    posReduceRate := posReduceRate
    inverse := sign (pbMsg.inverse 0)
    inverse_unit := sign_unit _
    criticalDelta :=
      if posReduceRate < 10000 then 1 / 10
      else if posReduceRate < 150000 then 11 / 10
      else if posReduceRate < 350000 then 21 / 10
      else 31 / 10 }

/-- What the loop over the motors leaves of motor `i` in the mileage object. -/
def setWheel (m : CMileage) (pbMsg : ChassisConfig) (i : Nat) : CMileage :=
  { m with
    scale := update m.scale i (2 * pi * pbMsg.r i / 1000 * sign (pbMsg.inverse i))
    invOne := update m.invOne i (sign (pbMsg.inverse i)) }

/-- The end of `initializeParam`. -/
def setInited (m : CMileage) : CMileage := { m with inverse := 1, inverse_unit := .inl rfl, paramInited := true }

end CMileage

end SeerDIOBoard.Mileage
