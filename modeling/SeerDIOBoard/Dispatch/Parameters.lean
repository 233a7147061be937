/-
  SeerDIOBoard.Dispatch.Parameters — what a 0xA005 message that is accepted makes usable.

  A message that is decoded is accepted whatever is in it, and the parameters it sets are
  divided by: by `forwardKinematicsTransDiff` in every encoder sample that is integrated, by
  `inverseKinematicsTransDiff` in every velocity command, and by the limiter, which takes a
  negative limit for one that standing still exceeds. Too great a turn leaves an angle from
  which the loops of `doCalc` never come back. `Valid` says which messages lead to none of
  this on a chassis that is or becomes a DOUBLE_DIFF one, in the arithmetic of the board,
  and `accepted_usable_iff` that these and no others are safe over every run of samples and
  commands.
-/

import SeerDIOBoard.Dispatch.Nanopb
import SeerDIOBoard.Mileage.Valid

namespace SeerDIOBoard.Dispatch

open Lib.Ieee
open SeerDIOBoard.Mileage SeerDIOBoard.Mileage.Floats
open SeerDIOBoard.Pb

/-- The number that a `float` on the wire stands for. -/
def floatOf (b : Single) : Val := binary32.ofBits b.toNat

theorem single_floatOf (b : Single) : single (floatOf b) = floatOf b := binary32.round_ofBits (by decide) b.toNat

def floatConfigOf (m : chassisConfigFields.Msg) : Floats.ChassisConfig where
  e := floatOf m.1
  r i := floatOf (m.2.1.items.getD i 0)
  driveIDCount := m.2.2.1.items.length
  encoderLines := m.2.2.2.1.toInt
  reductionRatio := floatOf m.2.2.2.2.1
  motorMaxSpeedRpm := m.2.2.2.2.2.1.toInt
  inverse i := m.2.2.2.2.2.2.1.items.getD i 0 ≠ 0
  e_single := single_floatOf _
  r_single _ := single_floatOf _
  reductionRatio_single := single_floatOf _

/-- `pb_decode` as `initializeParam` calls it. -/
def floatConfig (payload : List UInt8) : Bool × Floats.ChassisConfig := decodeInto chassisConfigFields floatConfigOf payload

theorem accepted_usable_iff (hasDriver : Bool) (m m' : Floats.CMileage) (payload : List UInt8)
    (h : m.initializeParam hasDriver (accepted (floatConfig payload)) = some (0, m')) :
    (m'.setChassisType doubleDiff).Usable ↔ m.Valid (floatConfig payload).2 := by
  obtain ⟨c, hc, hset⟩ := Floats.CMileage.configured_of_accepted h
  obtain rfl : (floatConfig payload).2 = c := by
    unfold accepted at hc
    split at hc
    case isTrue => exact Option.some.inj hc
    case isFalse => cases hc
  have hdiff : m.Configured (floatConfig payload).2 (m'.setChassisType doubleDiff) :=
    ⟨hset.e, hset.posReduceRate, hset.velReduceScale, hset.motorMaxSpeed, hset.scale, hset.angle, hset.firstIn⟩
  exact Floats.CMileage.usable_iff_valid hdiff rfl

/-- Two drives, all but the distance of the wheels. -/
def baseless : List UInt8 :=
  [0x12, 8, 0, 0, 0xC8, 0x42, 0, 0, 0xC8, 0x42, 0x1A, 2, 3, 4, 0x20, 0xC4, 0x13, 0x2D, 0, 0, 0xA0, 0x41, 0x30, 0xB8, 0x17]

/-- 500 between the wheels. -/
def complete : List UInt8 := [0x0D, 0, 0, 0xFA, 0x43] ++ baseless

theorem initializeParam_new (payload : List UInt8) (h : (floatConfig payload).1 = true) :
    ∃ m', Floats.CMileage.new.initializeParam true (accepted (floatConfig payload)) = some (0, m') ∧
      m'.chassisType = doubleDiff := by
  rw [accepted, if_pos h]
  refine ⟨_, rfl, ?_⟩
  rw [Floats.CMileage.setWheels_eq]
  rfl

theorem accepted_usable_complete :
    ∃ m', Floats.CMileage.new.initializeParam true (accepted (floatConfig complete)) = some (0, m') ∧
      (m'.setChassisType doubleDiff).Usable := by
  obtain ⟨m', h, -⟩ := initializeParam_new complete (by decide +kernel)
  refine ⟨m', h, (accepted_usable_iff true .new m' complete h).mpr ⟨?_, ?_, ?_, fun i hi => ?_, ?_, ?_⟩⟩
  · decide +kernel
  · decide +kernel
  · decide +kernel
  · obtain rfl | rfl : i = 0 ∨ i = 1 := by omega
    · decide +kernel
    · decide +kernel
  · decide +kernel
  · decide +kernel

theorem accepted_baseless_unusable :
    ∃ m', Floats.CMileage.new.initializeParam true (accepted (floatConfig baseless)) = some (0, m') ∧
      m'.chassisType = doubleDiff ∧ ¬ m'.Usable := by
  obtain ⟨m', h, htype⟩ := initializeParam_new baseless (by decide +kernel)
  obtain ⟨c, hc, hset⟩ := Floats.CMileage.configured_of_accepted h
  refine ⟨m', h, htype, fun husable => ?_⟩
  have hsane := Floats.CMileage.sane_of_usable htype hset.firstIn hset.angle husable
  refine hsane.e (hset.e.trans ?_)
  obtain rfl : (floatConfig baseless).2 = c := Option.some.inj hc
  decide +kernel

end SeerDIOBoard.Dispatch
