/-
  SeerDIOBoard.Pb.Messages — the messages on the board's ports (the `message_*.pb.c` and
  `message_*.pb.h` of protobuffer).

  What the host sends (`NavSpeed`, `ChassisDemandConfig`, `ChassisConfig`) and what the
  board reports (`Odometer`, `IMU`, `Controller`). A `float` and a `double` are the bits of
  their representation here.

  - `length_odometer`, `length_imu`, `length_controller`: the sizes that the headers give.
  - every table can be encoded, has tags of one byte, and no array in a submessage.
-/

import SeerDIOBoard.Pb.Compat

namespace SeerDIOBoard.Pb

open Fields

/-! ## The tables -/

def headerFields : Fields :=
  singular 1 .uint64 <| singular 2 .uint64 last

def navSpeedFields : Fields :=
  singular 1 .double <| singular 2 .double <| singular 3 .double <| message 4 headerFields <| singular 5 .double <|
    singular 6 .double last

def chassisConfigFields : Fields :=
  singular 1 .float <| repeated 2 .float 4 <| repeated 3 .int32 4 <| singular 4 .int32 <| singular 5 .float <|
    singular 6 .int32 <| repeated 7 .bool 4 last

def chassisDemandConfigFields : Fields :=
  singular 1 .int32 <| singular 2 .int32 <| singular 3 .int32 <| singular 4 .int32 <| singular 5 .int32 <|
    singular 6 .int32 <| singular 7 .int32 <| singular 8 .int32 <| singular 9 .int32 <| singular 10 .int32 last

def odometerFields : Fields :=
  message 1 headerFields <| singular 2 .uint32 <| singular 3 .double <| singular 4 .double <| singular 5 .double <|
    singular 6 .bool <| singular 7 .double <| singular 8 .double <| singular 9 .double <| repeated 10 .int32 4 <|
      singular 11 .double <| singular 12 .double last

def imuFields : Fields :=
  message 1 headerFields <| singular 2 .double <| singular 3 .double <| singular 4 .double <| singular 5 .double <|
    singular 6 .double <| singular 7 .double <| singular 8 .double <| singular 9 .double <| singular 10 .double <|
      singular 11 .int32 <| singular 12 .int32 <| singular 13 .int32 last

def controllerFields : Fields :=
  singular 1 .double <| singular 2 .double <| singular 3 .double <| singular 4 .bool <| singular 5 .bool <|
    singular 6 .bool <| singular 7 .bool <| singular 8 .bool <| singular 9 .bool last

/-- The tables of the messages the board encodes or decodes. -/
def boardTables : List Fields :=
  [navSpeedFields, chassisConfigFields, chassisDemandConfigFields, odometerFields, imuFields, controllerFields]

theorem boardTables_wf : ∀ fs, fs ∈ boardTables → fs.WF := by decide

theorem boardTables_tags : ∀ fs, fs ∈ boardTables → ∀ t, t ∈ fs.tags → t < 16 := by decide

theorem boardTables_flat : ∀ fs, fs ∈ boardTables → fs.flat = true := by decide

/-- Between the host and the board nothing is lost. -/
theorem pbDecode_board {fs : Fields} (hfs : fs ∈ boardTables) (m : fs.Msg) : pbDecode fs (msgBytes fs m) = ⟨m, none, []⟩ := by
  rw [pbDecode_msgBytes (boardTables_wf fs hfs), (shown_eq_iff fs m).mpr (sent_of_flat (boardTables_flat fs hfs) m)]

/-! ## The messages -/

abbrev Double := BitVec 64
abbrev Single := BitVec 32

/-- The memory of a `bool`. -/
def boolMem (b : Bool) : PbType.bool.Mem := if b = true then 1 else 0

structure MessageHeader where
  pubNsec : BitVec 64
  dataNsec : BitVec 64

def MessageHeader.msg (h : MessageHeader) : headerFields.Msg := (h.pubNsec, h.dataNsec, ())

structure MessageOdometer where
  header : MessageHeader
  cycle : BitVec 32
  x : Double
  y : Double
  angle : Double
  isStop : Bool
  velX : Double
  velY : Double
  velRotate : Double
  encoder : Repeated (BitVec 32) 4
  steerAngle : Double
  spinAngle : Double

def MessageOdometer.msg (m : MessageOdometer) : odometerFields.Msg :=
  (m.header.msg, m.cycle, m.x, m.y, m.angle, boolMem m.isStop, m.velX, m.velY, m.velRotate, m.encoder, m.steerAngle,
    m.spinAngle, ())

structure MessageIMU where
  header : MessageHeader
  yaw : Double
  roll : Double
  pitch : Double
  accX : Double
  accY : Double
  accZ : Double
  rotX : Double
  rotY : Double
  rotZ : Double
  rotOffX : BitVec 32
  rotOffY : BitVec 32
  rotOffZ : BitVec 32

def MessageIMU.msg (m : MessageIMU) : imuFields.Msg :=
  (m.header.msg, m.yaw, m.roll, m.pitch, m.accX, m.accY, m.accZ, m.rotX, m.rotY, m.rotZ, m.rotOffX, m.rotOffY, m.rotOffZ, ())

structure MessageController where
  temp : Double
  humi : Double
  voltage : Double
  emc : Bool
  brake : Bool
  driverEmc : Bool
  manualCharge : Bool
  autoCharge : Bool
  electric : Bool

def MessageController.msg (m : MessageController) : controllerFields.Msg :=
  (m.temp, m.humi, m.voltage, boolMem m.emc, boolMem m.brake, boolMem m.driverEmc, boolMem m.manualCharge,
    boolMem m.autoCharge, boolMem m.electric, ())

/-! ## The sizes in the headers -/

def odometerSize : Nat := 148
def imuSize : Nat := 138
def controllerSize : Nat := 39

/-- The longest value of a type; a `bool` is 0 or 1. -/
def PbType.maxLen : PbType → Nat
  | .float => 4
  | .double => 8
  | .uint32 => 5
  | .bool => 1
  | .int32 | .int64 | .uint64 | .sint32 | .sint64 => 10

/-- What an object of the type can hold. -/
def PbType.Holds (ty : PbType) (v : ty.Mem) : Prop := ty = .bool → v.toNat ≤ 1

theorem boolMem_le (b : Bool) : (boolMem b).toNat ≤ 1 := by cases b <;> decide

theorem scalarBytes_length_le {ty : PbType} {v : ty.Mem} (h : ty.Holds v) : (scalarBytes ty v).length ≤ ty.maxLen := by
  have hv := v.isLt
  cases ty with
  | float => exact Nat.le_of_eq (leBytes_length 4 _)
  | double => exact Nat.le_of_eq (leBytes_length 8 _)
  | uint32 => exact length_varintBytes (by decide) (by decide) (Nat.lt_of_lt_of_le hv (by decide))
  | bool =>
    have hle := h rfl
    have hint : v.toInt = v.toNat := BitVec.toInt_eq_toNat_of_lt (show 2 * v.toNat < 2 ^ 8 by omega)
    refine length_varintBytes (by decide) (by decide) (show unsigned v.toInt < 128 ^ 1 from ?_)
    rw [hint, unsigned]
    omega
  | int32 | int64 | uint64 | sint32 | sint64 => exact scalarBytes_length_le_ten _ v

theorem length_le_of_holds {fs : Fields} {m : fs.Msg} (h : fs.All PbType.Holds m) :
    (msgBytes fs m).length ≤ fs.maxSize PbType.maxLen := by
  refine length_msgBytes_le ?_
  induction fs with
  | last => trivial
  | singular tag ty rest ih => exact ⟨scalarBytes_length_le h.1, ih h.2⟩
  | repeated tag ty n rest ih => exact ⟨fun v hv => scalarBytes_length_le (h.1 v hv), ih h.2⟩
  | message tag sub rest ihs ih => exact ⟨ihs h.1, ih h.2⟩

theorem length_odometer (m : MessageOdometer) : (msgBytes odometerFields m.msg).length ≤ odometerSize := by
  refine Nat.le_trans (length_le_of_holds ?_) (show odometerFields.maxSize PbType.maxLen ≤ 148 by decide)
  simp [odometerFields, headerFields, Fields.All, MessageOdometer.msg, MessageHeader.msg, PbType.Holds, boolMem_le]

theorem length_imu (m : MessageIMU) : (msgBytes imuFields m.msg).length ≤ imuSize := by
  refine Nat.le_trans (length_le_of_holds ?_) (show imuFields.maxSize PbType.maxLen ≤ 138 by decide)
  simp [imuFields, headerFields, Fields.All, MessageIMU.msg, MessageHeader.msg, PbType.Holds]

theorem length_controller (m : MessageController) : (msgBytes controllerFields m.msg).length ≤ controllerSize := by
  refine Nat.le_trans (length_le_of_holds ?_) (show controllerFields.maxSize PbType.maxLen ≤ 39 by decide)
  simp [controllerFields, Fields.All, MessageController.msg, PbType.Holds, boolMem_le]

end SeerDIOBoard.Pb
