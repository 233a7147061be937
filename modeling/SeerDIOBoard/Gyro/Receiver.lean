/-
  SeerDIOBoard.Gyro.Receiver — the gyro's serial receiver (`CGyroDevice::Decode_frame`,
  `UART2_CommandRoute`, `Sum_check`, `UART2_Get_IMU`, `UART2_Get_Motion`; src/Gyro.cxx,
  src/Gyro.h). `rcvFrame` hands the bytes of the line to `decodeFrame` one at a time.

  A frame on the line is A5 5A b0 .. b(L-1), with b0 = L, the type in b1, an additive
  checksum in b(L-2) and a tail byte. The receiver writes what follows a header from
  the start of `rxBuffer` and takes the frame as complete when the write index has
  reached the length byte.

  `rxBuffer i` is the byte at `rx_buffer + i`: indices 0 to 49 are the array, any other
  index is the memory beside it, which the code does not keep out of (`Sum_check` reads
  `rx_buffer[-1]` when the length byte is 1). The angles are exact rationals.

  `decodeFrame` returns the new state and, when it calls `UART2_CommandRoute`, a record
  of that call: the buffer it found, whether the frame was complete with a good
  checksum, whether it went on to `report` and whether it raised the freeze alarm
  (`rstTxPowerOff`).
-/

import Mathlib.Logic.Function.Basic
import Mathlib.Algebra.Order.Field.Rat

namespace SeerDIOBoard.Gyro.Receiver

open Function (update)

def bUartHead : UInt8 := 0x80
def bRxOver : UInt8 := 0x40
def rxBufferSize : Nat := 50

/-- `VERSION_HEAD`, as the bits of an `int16_t`. -/
def versionHead : Nat := 0xA5A5
def versionF103 : Nat := 0x01
def versionF407 : Nat := 0x02

def gyroInitDataBuffer : List UInt8 := [0xA5, 0x5A, 0x07, 0xB3, 0x01, 0x05, 0x07, 0xC7, 0xAA]

structure CGyroDevice where
  rxBuffer : Int → UInt8
  rxWrIndex : Nat
  rcFlag : UInt8
  yaw : Rat
  pitch : Rat
  roll : Rat
  version : Nat → Nat
  ax : Int
  ay : Int
  az : Int
  gx : Int
  gy : Int
  gz : Int
  offGx : Int
  offGy : Int
  offGz : Int
  prevAx : Int
  prevAy : Int
  prevAz : Int
  prevGx : Int
  prevGy : Int
  prevGz : Int
  gyroFreezeCounter : Nat
  accFreezeCounter : Nat
  mSetLsbFlag : Bool
  isImuReady : Bool
  isMotionReady : Bool
  finishBan : Bool
  isAck : Bool
  beforeCaliYawRecord : Rat
  deriving Inhabited

/-- One call of `UART2_CommandRoute`. -/
structure Call where
  buf : Int → UInt8
  accepted : Bool
  reported : Bool
  repowered : Bool

/-! ## The fields of a frame -/

/-- The bits `temp` holds after `temp = hi; temp <<= 8; temp |= lo`. -/
def raw16 (buf : Int → UInt8) (i : Int) : Nat := (buf i).toNat * 256 + (buf (i + 1)).toNat

/-- Sign bit and 15-bit magnitude. -/
def signMag (temp : Nat) : Int :=
  if temp &&& 0x8000 ≠ 0 then 0 - ((temp &&& 0x7fff : Nat) : Int) else ((temp &&& 0x7fff : Nat) : Int)

def field (buf : Int → UInt8) (i : Int) : Int := signMag (raw16 buf i)

def sumCheck (buf : Int → UInt8) : Bool :=
  let len := (buf 0).toNat
  let checksum := ((List.range (len - 2)).map fun i : Nat => (buf i).toNat).sum
  checksum % 256 == (buf ((len : Int) - 2)).toNat

def uart2GetImu (s : CGyroDevice) : CGyroDevice :=
  let buf := s.rxBuffer
  let s := { s with yaw := field buf 2 / 10, pitch := field buf 4 / 10, roll := field buf 6 / 10 }
  if raw16 buf 8 = versionHead then
    let temp := (buf 10).toNat
    let v0 := if temp = versionF103 then 103 else if temp = versionF407 then 407 else 0
    let s := { s with version := update s.version 0 v0 }
    if v0 ≠ 0 then
      { s with version := update (update (update s.version 1 (buf 11).toNat) 2 (buf 12).toNat) 3 (buf 13).toNat }
    else s
  else s

def uart2GetMotion (s : CGyroDevice) : CGyroDevice :=
  let buf := s.rxBuffer
  { s with
    ax := field buf 2, ay := field buf 4, az := field buf 6
    gx := field buf 8, gy := field buf 10, gz := field buf 12
    offGx := field buf 14, offGy := field buf 16, offGz := field buf 18 }

/-- The two 16-bit freeze counters and the readings they compare with. -/
def countFreeze (s : CGyroDevice) : CGyroDevice :=
  { s with
    accFreezeCounter :=
      if s.ax = s.prevAx ∧ s.ay = s.prevAy ∧ s.az = s.prevAz then (s.accFreezeCounter + 1) % 65536 else 0
    gyroFreezeCounter :=
      if s.gx = s.prevGx ∧ s.gy = s.prevGy ∧ s.gz = s.prevGz then (s.gyroFreezeCounter + 1) % 65536 else 0
    prevAx := s.ax, prevAy := s.ay, prevAz := s.az
    prevGx := s.gx, prevGy := s.gy, prevGz := s.gz }

/-- What `UART2_CommandRoute` does with a frame whose checksum is good: the new state,
    whether it reports and whether it raises the freeze alarm. -/
def route (s : CGyroDevice) : CGyroDevice × Bool × Bool :=
  if s.rxBuffer 1 = 0xA1 then
    let s := { uart2GetImu s with isImuReady := true }
    (s, s.isImuReady && s.isMotionReady, false)
  else if s.rxBuffer 1 = 0xA2 then
    let s := countFreeze { uart2GetMotion s with isMotionReady := true }
    (s, false, decide (s.accFreezeCounter > 100 ∨ s.gyroFreezeCounter > 500))
  else if s.rxBuffer 1 = gyroInitDataBuffer.getD 3 0 then (s, false, false)
  else if s.rxBuffer 1 = 0x38 then (s, false, false)
  else if s.rxBuffer 1 = 0x39 then ({ s with mSetLsbFlag := true }, false, false)
  else if s.rxBuffer 1 = 0x0B then
    (if s.finishBan = true then { s with isAck := true, beforeCaliYawRecord := s.yaw } else s, false, false)
  else (s, false, false)

def uart2CommandRoute (s : CGyroDevice) : CGyroDevice × Call :=
  if s.rcFlag &&& bRxOver ≠ 0 then
    let s := { s with rcFlag := s.rcFlag &&& ~~~bRxOver }
    if sumCheck s.rxBuffer then
      let r := route s
      (r.1, ⟨s.rxBuffer, true, r.2.1, r.2.2⟩)
    else (s, ⟨s.rxBuffer, false, false, false⟩)
  else (s, ⟨s.rxBuffer, false, false, false⟩)

/-! ## One byte of the line -/

/-- `rx_buffer[rx_wr_index++] = data`. -/
def put (s : CGyroDevice) (data : UInt8) : CGyroDevice :=
  { s with rxBuffer := update s.rxBuffer s.rxWrIndex data, rxWrIndex := (s.rxWrIndex + 1) % 256 }

/-- The end of `Decode_frame`: the index never stays past the array. -/
def clamp (s : CGyroDevice) : CGyroDevice :=
  if s.rxWrIndex = rxBufferSize then { s with rxWrIndex := s.rxWrIndex - 1 } else s

def decodeFrame (s : CGyroDevice) (data : UInt8) : CGyroDevice × Option Call :=
  if data = 0xa5 then
    (clamp (put { s with rcFlag := s.rcFlag ||| bUartHead } data), none)
  else if data = 0x5a then
    let s := if s.rcFlag &&& bUartHead ≠ 0 then { s with rxWrIndex := 0, rcFlag := s.rcFlag &&& ~~~bRxOver }
      else put s data
    (clamp { s with rcFlag := s.rcFlag &&& ~~~bUartHead }, none)
  else
    let s := put s data
    let s := { s with rcFlag := s.rcFlag &&& ~~~bUartHead }
    if s.rxWrIndex = (s.rxBuffer 0).toNat then
      let r := uart2CommandRoute { s with rcFlag := s.rcFlag ||| bRxOver }
      (clamp r.1, some r.2)
    else (clamp s, none)

/-- The receiver after a stretch of the line. -/
def feed (s : CGyroDevice) (bytes : List UInt8) : CGyroDevice := bytes.foldl (fun s b => (decodeFrame s b).1) s

/-- The call each byte of the line leads to, in order. -/
def calls (s : CGyroDevice) : List UInt8 → List (Option Call)
  | [] => []
  | b :: bs => (decodeFrame s b).2 :: calls (decodeFrame s b).1 bs

end SeerDIOBoard.Gyro.Receiver
