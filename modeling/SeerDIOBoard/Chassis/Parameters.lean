/-
  SeerDIOBoard.Chassis.Parameters — what a 0xA005 message that is refused leaves as it was.

  `initializeParam` resets the pose before it decodes the message. When `pb_decode` fails it
  returns -1 and nothing else has changed (`rejected_kept_iff`).
-/

import SeerDIOBoard.Chassis.DrivePath

namespace SeerDIOBoard.Chassis

open SeerDIOBoard.Can SeerDIOBoard.Mileage

variable {F : Type}

/-- Nothing a 0xA005 message is about has changed. -/
structure Kept (s s' : Devices F) : Prop where
  pose : s'.mileage.x = s.mileage.x ∧ s'.mileage.y = s.mileage.y ∧ s'.mileage.angle = s.mileage.angle
  firstIn : s'.mileage.firstIn = s.mileage.firstIn
  e : s'.mileage.e = s.mileage.e
  scale : s'.mileage.scale = s.mileage.scale
  velReduceScale : s'.mileage.velReduceScale = s.mileage.velReduceScale
  posReduceRate : s'.mileage.posReduceRate = s.mileage.posReduceRate
  motorMaxSpeedRpm : s'.mileage.motorMaxSpeedRpm = s.mileage.motorMaxSpeedRpm
  motorMaxSpeed : s'.mileage.motorMaxSpeed = s.mileage.motorMaxSpeed
  encoderLines : s'.mileage.encoderLines = s.mileage.encoderLines
  inverse : s'.mileage.inverse = s.mileage.inverse
  invOne : s'.mileage.invOne = s.mileage.invOne
  criticalDelta : s'.mileage.criticalDelta = s.mileage.criticalDelta
  chassisType : s'.mileage.chassisType = s.mileage.chassisType
  driver : s'.chassis.driverProtocol = s.chassis.driverProtocol
  paramInited : s'.mileage.paramInited = s.mileage.paramInited

/-- The pose is still the one of a reset. -/
def AtRest (m : CMileage) : Prop := m.x = 0 ∧ m.y = 0 ∧ m.angle = 0 ∧ m.firstIn = true

theorem initializeParamBy_accepted {int32 : Int → Int} {s s' : Devices F} {pbMsg : ChassisConfig} {r : Int}
    (h : initializeParamBy int32 s (some pbMsg) = some (r, s')) : r = 0 := by
  unfold initializeParamBy at h
  dsimp only at h
  split at h
  case isTrue =>
    exact (Prod.mk.inj (Option.some.inj h)).1.symm
  case isFalse =>
    split at h
    case h_1 => cases h
    case h_2 => exact (Prod.mk.inj (Option.some.inj h)).1.symm

theorem rejected_kept_iff (s s' : Devices F) (pbMsg : Option ChassisConfig)
    (h : initializeParam s pbMsg = some (-1, s')) : Kept s s' ↔ AtRest s.mileage := by
  cases pbMsg with
  | some pbMsg => exact absurd (initializeParamBy_accepted h) (by decide)
  | none =>
    obtain ⟨-, rfl⟩ := Prod.mk.inj (Option.some.inj h)
    constructor
    · intro hk
      obtain ⟨hx, hy, hangle⟩ := hk.pose
      exact ⟨hx.symm, hy.symm, hangle.symm, hk.firstIn.symm⟩
    · intro ⟨hx, hy, hangle, hfirst⟩
      exact ⟨⟨hx.symm, hy.symm, hangle.symm⟩, hfirst.symm, rfl, rfl, rfl, rfl, rfl, rfl, rfl, rfl, rfl, rfl, rfl, rfl,
        rfl⟩

/-- A metre from where the odometer was last reset. -/
def driven : Devices ℚ := { fresh with mileage := { fresh.mileage with x := 1, firstIn := false } }

theorem rejected_kept_atRest : Kept fresh { fresh with mileage := fresh.mileage.doInit } :=
  (rejected_kept_iff fresh _ none rfl).mpr ⟨rfl, rfl, rfl, rfl⟩

theorem rejected_resets_pose :
    initializeParam driven none = some (-1, { driven with mileage := driven.mileage.doInit }) ∧
      ¬ Kept driven { driven with mileage := driven.mileage.doInit } := by
  refine ⟨rfl, fun h => ?_⟩
  have hx : (0 : ℚ) = 1 := h.pose.1
  exact absurd hx (by decide)

end SeerDIOBoard.Chassis
