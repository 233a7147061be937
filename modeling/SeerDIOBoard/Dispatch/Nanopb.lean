/-
  SeerDIOBoard.Dispatch.Nanopb — the decoder of protobuffer/ in the place that the
  dispatcher's model leaves open.

  A `double` is its bits here (`narrowed` is the conversion to `float`), and what number the
  model takes a `float` for is a parameter.
-/

import SeerDIOBoard.Dispatch.Dispatcher
import SeerDIOBoard.Lib.Ieee
import SeerDIOBoard.Pb.Messages

namespace SeerDIOBoard.Dispatch

open SeerDIOBoard.Chassis SeerDIOBoard.Mileage
open SeerDIOBoard.Pb

def navSpeedOf (m : navSpeedFields.Msg) : NavSpeed Double := ⟨m.1, m.2.1, m.2.2.1⟩

def chassisDemandConfigOf (m : chassisDemandConfigFields.Msg) : ChassisDemandConfig where
  bChassisExist := m.1.toInt
  chassisType := m.2.2.2.2.2.2.2.2.1.toInt
  driverBrand := m.2.2.2.2.2.2.2.2.2.1.toInt

/-- `float` is the number that a `float` stands for. -/
def chassisConfigOf (float : Single → ℚ) (m : chassisConfigFields.Msg) : ChassisConfig where
  e := float m.1
  r i := float (m.2.1.items.getD i 0)
  driveID := m.2.2.1.items.map BitVec.toInt
  driveID_le := by
    rw [List.length_map]
    exact m.2.2.1.items_le
  encoderLines := m.2.2.2.1.toInt
  reductionRatio := float m.2.2.2.2.1
  motorMaxSpeedRpm := m.2.2.2.2.2.1.toInt
  inverse i := m.2.2.2.2.2.2.1.items.getD i 0 ≠ 0

/-- `pb_decode` as a handler calls it. -/
def decodeInto {α : Type} (fs : Fields) (view : fs.Msg → α) (bytes : List UInt8) : Bool × α :=
  let o := pbDecode fs bytes
  (o.error.isNone, view o.dest)

def nanopb (float : Single → ℚ) : Nanopb Double where
  navSpeed := decodeInto navSpeedFields navSpeedOf
  chassisDemandConfig := decodeInto chassisDemandConfigFields chassisDemandConfigOf
  chassisConfig := decodeInto chassisConfigFields (chassisConfigOf float)

/-- The conversion from `double` to `float`. -/
def narrowed (d : Double) : Lib.Ieee.Val := Lib.Ieee.binary32.round (Lib.Ieee.binary64.ofBits d.toNat)

theorem decodeInto_msgBytes {α : Type} {fs : Fields} (hfs : fs ∈ boardTables) (view : fs.Msg → α) (m : fs.Msg) :
    decodeInto fs view (msgBytes fs m) = (true, view m) := by
  rw [decodeInto, pbDecode_board hfs]
  rfl

end SeerDIOBoard.Dispatch
