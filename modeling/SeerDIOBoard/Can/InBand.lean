/-
  SeerDIOBoard.Can.InBand — the drivers that start their motors up inside the traffic of
  the chassis task: `CProtocolDeltaCANOpen`, `CProtocolHlsCANOpen` and
  `CProtocolMingZhiCanopen` (DriverProtocol/). None of them is in the build.

  Until the start-up is over, `encode` puts a start-up frame in the place of the command it
  is asked for, and `decode` takes every frame for the reply to a speed command. Delta and
  HLS are the same code over two tables (`InBandTable`), and count the frames up, motor by
  motor. MingZhi counts down, motor after motor, and sends every other frame to 0x610; its
  flag and counters are variables of the file, so a new driver object finds the counters
  as they are.

  `msgCount` is an `int8_t`. In Delta and HLS it stays under the number of frames to be
  sent, at most 24. Where MingZhi's index leaves its table or `_motorRxId`, `encode` has
  no result. Floats are exact rationals. The frame type is that of a vendor header, of which the id
  and the data are kept.
-/

import SeerDIOBoard.Can.Requests
import SeerDIOBoard.Lib.Round
import SeerDIOBoard.Mileage.Param
import Mathlib.Data.Rat.Floor

namespace SeerDIOBoard.Can

open Function (update)
open Lib.Bytes Lib.Round SeerDIOBoard.Mileage

structure StdTxMsg where
  stdId : Nat
  data : Nat → UInt8

/-- The command part of the three `encode`s. `posRequest` are the first three bytes of the
    position command. -/
def encodeRequest (posRequest : List UInt8) (ct : MotorDriverCmdType) (speedVal : Int) (data : Nat → UInt8) :
    Nat → UInt8 :=
  match ct with
  | .targetSpeed => setBytes (setBytes data 0 [0x23, 0xff, 0x60, 0x00]) 4 (leBytes 4 speedVal)
  | .acturalPos => setBytes data 0 (posRequest ++ [0, 0, 0, 0, 0])
  | .driState => setBytes data 0 [0x40, 0x41, 0x60, 0, 0, 0, 0, 0]
  | _ => data

/-! ## Delta and HLS -/

structure InBandTable where
  initData : List (List UInt8)
  targetSpeedData : List UInt8
  posRequest : List UInt8
  acturalPosData : List UInt8
  errCodeData : List UInt8

structure InBandDriver where
  isInitSend : Bool
  msgCount : Nat
  initOperateCount : Int
  motorRxId : Nat → Nat

namespace InBandDriver

/-- The constructor, over what the object's memory and the file's `msgCount` hold. -/
def construct (m : CMileage) (d : InBandDriver) : InBandDriver :=
  { d with
    isInitSend := false
    initOperateCount := 0
    motorRxId := fun i => if i < m.numOfWheel then 0x601 + i else d.motorRxId i }

/-- In exact rationals; the code computes it in `float`. -/
def speedVal (m : CMileage) (val : Int) : Int :=
  let t : ℚ := if 0 ≤ val then 1 else -1
  trunc (10 * val * 6 / (4 * m.encoderLines) + t * (1 / 2))

/-- `encode` from the test of `isInitSend` on, once the start-up is over. -/
def command (t : InBandTable) (m : CMileage) (d : InBandDriver) (motorIdx : Nat) (ct : MotorDriverCmdType) (val : Int)
    (msg : StdTxMsg) : InBandDriver × StdTxMsg :=
  (d, { stdId := d.motorRxId motorIdx, data := encodeRequest t.posRequest ct (speedVal m val) msg.data })

def encode (t : InBandTable) (m : CMileage) (d : InBandDriver) (motorIdx : Nat) (ct : MotorDriverCmdType) (val : Int)
    (msg : StdTxMsg) : InBandDriver × StdTxMsg :=
  if false = d.isInitSend then
    if d.msgCount < m.numOfWheel * t.initData.length then
      ({ d with msgCount := d.msgCount + 1 },
        { stdId := d.motorRxId motorIdx, data := bytesOf (t.initData.getD (d.msgCount / m.numOfWheel) []) })
    else command t m { d with msgCount := 0, isInitSend := true } motorIdx ct val msg
  else command t m d motorIdx ct val msg

def decode (t : InBandTable) (d : InBandDriver) (val : Int) (msg : CanMsg) : Decoded :=
  if false = d.isInitSend then ⟨true, .targetSpeed, 0⟩
  else { decodeWith [t.targetSpeedData] t.acturalPosData t.errCodeData val msg with ok := true }

end InBandDriver

namespace CProtocolDeltaCANOpen

def posModeInitData : List (List UInt8) :=
  [[0x2F, 0x60, 0x60, 0x00, 0x03, 0x00, 0x00, 0x00],
    [0x2B, 0x40, 0x60, 0x00, 0x06, 0x00, 0x00, 0x00],
    [0x2B, 0x40, 0x60, 0x00, 0x07, 0x00, 0x00, 0x00],
    [0x2B, 0x40, 0x60, 0x00, 0x0F, 0x00, 0x00, 0x00],
    [0x23, 0x83, 0x60, 0x00, 0xE8, 0x03, 0x00, 0x00],
    [0x23, 0x84, 0x60, 0x00, 0xD0, 0x07, 0x00, 0x00]]

def table : InBandTable where
  initData := posModeInitData
  targetSpeedData := [0x60, 0xff, 0x60]
  posRequest := [0x40, 0x64, 0x60]
  acturalPosData := [0x43, 0x64, 0x60, 0x00]
  errCodeData := [0x4B, 0x41, 0x60, 0x00]

def encode := InBandDriver.encode table

def decode := InBandDriver.decode table

def getInitMsg (_ : CMileage) (d : InBandDriver) : Bool × InBandDriver :=
  (false, { d with msgCount := 0, isInitSend := false })

end CProtocolDeltaCANOpen

namespace CProtocolHlsCANOpen

def posModeInitData : List (List UInt8) :=
  [[0x2F, 0x60, 0x60, 0x00, 0x03, 0x00, 0x00, 0x00],
    [0x2B, 0x40, 0x60, 0x00, 0x06, 0x00, 0x00, 0x00],
    [0x2B, 0x40, 0x60, 0x00, 0x07, 0x00, 0x00, 0x00],
    [0x2B, 0x40, 0x60, 0x00, 0x0F, 0x00, 0x00, 0x00]]

def table : InBandTable where
  initData := posModeInitData
  targetSpeedData := [0x60, 0xff, 0x60]
  posRequest := [0x40, 0x63, 0x60]
  acturalPosData := [0x43, 0x63, 0x60, 0x00]
  errCodeData := [0x4B, 0x41, 0x60, 0x00]

def encode := InBandDriver.encode table

def decode := InBandDriver.decode table

/-- An NMT start frame for each wheel first; the frame is left out. -/
def getInitMsg (m : CMileage) (d : InBandDriver) : Bool × InBandDriver :=
  if d.initOperateCount < m.numOfWheel then (true, { d with initOperateCount := d.initOperateCount + 1 })
  else (false, { d with msgCount := 0, isInitSend := false, initOperateCount := 0 })

end CProtocolHlsCANOpen

/-! ## MingZhi -/

structure CProtocolMingZhiCanopen where
  isInitSend : Bool
  msgCount : Int8
  /-- The static `count` of `encode`. -/
  count : Nat
  motorRxId : Nat → Nat

namespace CProtocolMingZhiCanopen

def initMsgCounts : Nat := 5

def velModeInitData : List (List UInt8) :=
  [[0x2B, 0x40, 0x60, 0x00, 0x06, 0x00, 0x00, 0x00],
    [0x2B, 0x40, 0x60, 0x00, 0x07, 0x00, 0x00, 0x00],
    [0x2B, 0x40, 0x60, 0x00, 0x0F, 0x00, 0x00, 0x00],
    [0x2F, 0x60, 0x60, 0x00, 0x03, 0x00, 0x00, 0x00],
    [0x40, 0x41, 0x60, 0x00, 0x00, 0x00, 0x00, 0x00]]

def targetSpeedData : List UInt8 := [0x60, 0xff, 0x60]
def acturalPosData : List UInt8 := [0x43, 0x0a, 0x70, 0x00]
def errCodeData : List UInt8 := [0x4B, 0x41, 0x60, 0x00]

/-- `num_of_wheel() * MINGZHI_INIT_MSG_COUNTS` as the `int8_t` it is kept in. -/
def allMsgs (m : CMileage) : Int8 := Int8.ofInt (m.numOfWheel * initMsgCounts)

def construct (m : CMileage) (d : CProtocolMingZhiCanopen) : CProtocolMingZhiCanopen :=
  { d with
    isInitSend := false
    motorRxId := fun i => if i < m.numOfWheel then 0x601 + i else d.motorRxId i }

/-- In exact rationals; the code computes it in `float`. -/
def speedVal (m : CMileage) (val : Int) : Int :=
  let t : ℚ := if 0 ≤ val then 1 else -1
  trunc (val / (4 * m.encoderLines) * 24 + t * (1 / 2))

def currentMsg (m : CMileage) (d : CProtocolMingZhiCanopen) : Int8 :=
  Int8.ofInt (m.numOfWheel * initMsgCounts - d.msgCount.toInt)

/-- `encode` while `isInitSend` is false, on the frame so far. -/
def startUp (m : CMileage) (d : CProtocolMingZhiCanopen) : Option (CProtocolMingZhiCanopen × StdTxMsg) :=
  if 1 ≤ d.count then
    let row := (currentMsg m d).toInt.tmod initMsgCounts
    let idx := ((currentMsg m d).toInt.tdiv initMsgCounts) % 2 ^ 8
    if 0 ≤ row ∧ idx < 4 then
      some ({ d with count := 0, msgCount := d.msgCount - 1, isInitSend := decide (d.msgCount - 1 = 0) },
        { stdId := d.motorRxId idx.toNat, data := bytesOf (velModeInitData.getD row.toNat []) })
    else none
  else
    some ({ d with count := d.count + 1 }, { stdId := 0x610, data := bytesOf (velModeInitData.getD 0 []) })

def encode (m : CMileage) (d : CProtocolMingZhiCanopen) (motorIdx : Nat) (ct : MotorDriverCmdType) (val : Int)
    (msg : StdTxMsg) : Option (CProtocolMingZhiCanopen × StdTxMsg) :=
  if false = d.isInitSend then startUp m d
  else
    some (d, { stdId := d.motorRxId motorIdx,
               data := encodeRequest [0x43, 0x0a, 0x70] ct (speedVal m val) msg.data })

/-- Back to the start-up, by a motor that is not enabled. -/
def reconfig (m : CMileage) (d : CProtocolMingZhiCanopen) (errCode : Int) : CProtocolMingZhiCanopen :=
  if errCode % 8 ≠ 7 ∧ true = d.isInitSend then { d with isInitSend := false, msgCount := allMsgs m } else d

/-- `memcmp(MINGZHI_TARGET_SPEED_DATA, msg.Data, 3) == 0`. -/
def isSpeedAck (data : Nat → UInt8) : Bool := (List.range 3).all fun i => targetSpeedData.getD i 0 == data i

def decode (m : CMileage) (d : CProtocolMingZhiCanopen) (val : Int) (msg : CanMsg) : CProtocolMingZhiCanopen × Decoded :=
  if false = d.isInitSend then (d, ⟨true, .targetSpeed, 0⟩)
  else if isSpeedAck msg.cmData then (d, ⟨true, .targetSpeed, val⟩)
  else
    let r := decodeWith [] acturalPosData errCodeData val msg
    if r.ct = .driState then (reconfig m d r.val, r) else (d, r)

def parseErrCode (m : CMileage) (d : CProtocolMingZhiCanopen) (errCode : UInt32) : CProtocolMingZhiCanopen :=
  reconfig m d errCode.toNat

end CProtocolMingZhiCanopen

end SeerDIOBoard.Can
