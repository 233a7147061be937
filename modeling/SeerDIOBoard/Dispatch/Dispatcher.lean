/-
  SeerDIOBoard.Dispatch.Dispatcher — the command dispatcher (`task_commanddispatch`,
  src/task_commanddispatch.cxx): it receives datagrams into `inbuf`, takes their first
  four bytes for the command, looks the handler up and calls it with the rest.

  `inbuf i` for `i < 1024` is the buffer. It keeps what earlier datagrams left behind a
  shorter one; above 1024 it is the memory after the buffer, which the code reads when a
  datagram of less than four bytes gives it the length `(uint16_t)(nbytes - 4)`.

  Parameters here: `pb_decode` (`Nanopb`: whether it accepts, and what it has stored by
  then; Dispatch/Nanopb has the one of protobuffer/) and the conversion from `double` to
  `float`. The time synchronisation (`Sntp`) is a parameter too; it shares no state with
  the rest, and `Env` is what its calls find (clock, sockets).

  The rows of `CommandHandlerTab` without a handler never match and are left out.
-/

import SeerDIOBoard.Chassis.Config

namespace SeerDIOBoard.Dispatch

open SeerDIOBoard.Can SeerDIOBoard.Chassis SeerDIOBoard.Mileage

/-! ## What is outside -/

structure NavSpeed (D : Type) where
  x : D
  y : D
  rotate : D

/-- `pb_decode` of the messages the handlers take, on a message that was set to zero. -/
structure Nanopb (D : Type) where
  navSpeed : List UInt8 → Bool × NavSpeed D
  chassisDemandConfig : List UInt8 → Bool × ChassisDemandConfig
  chassisConfig : List UInt8 → Bool × ChassisConfig

/-- `CSntpSynchr`: `ntpQueryHandler` with its result, and `ntpCalcHandler` with the buffer
    and the length it is given. -/
structure Sntp (T Env : Type) where
  ntpQueryHandler : T → Env → Int × T
  ntpCalcHandler : T → Env → (Nat → UInt8) → Nat → T

/-! ## The handlers -/

inductive Handler where
  | gyroCmd
  | chassisCommand
  | nullConfigCmd
  | configChassisType
  | initMileageParamCommand
  | timeSyncQuery
  deriving DecidableEq, Repr

def commandHandlerTab : List (Nat × Handler) :=
  [(0x1013, .timeSyncQuery), (0x101A, .gyroCmd), (0x1034, .chassisCommand), (0xA001, .gyroCmd),
    (0xA002, .nullConfigCmd), (0xA003, .nullConfigCmd), (0xA004, .configChassisType),
    (0xA005, .initMileageParamCommand), (0xA006, .nullConfigCmd), (0xA007, .nullConfigCmd), (0xA008, .nullConfigCmd)]

/-- The first row with the command. -/
def findHandler (ct : Nat) : Option Handler := (commandHandlerTab.find? fun row => row.1 == ct).map (·.2)

variable {F D T Env : Type}

/-- `CChassisDevice::chassisCmdHandler`, on what `pb_decode` returned. -/
def chassisCmdHandler (narrow : D → F) (c : CChassisDevice F) (pb : Bool × NavSpeed D) : Int × CChassisDevice F :=
  let c := { c with oriGlobalX := narrow pb.2.x, oriGlobalY := narrow pb.2.y, oriGlobalW := narrow pb.2.rotate }
  (0, c.newSpeedCmd)

/-- `CGyroDevice::gyroCmdDispatcher`: every branch of its switch is empty. -/
def gyroCmdDispatcher : Int := 0

def nullConfigCallback : Int := 0

/-- The decoded message, where `pb_decode` accepted. -/
def accepted {α : Type} (pb : Bool × α) : Option α := if pb.1 = true then some pb.2 else none

structure Board (F T : Type) where
  inbuf : Nat → UInt8
  destport : Nat
  devices : Devices F
  sntp : T
  /-- A null driver was dereferenced. -/
  fault : Bool

/-- A datagram as `recvfrom` delivers it, with what the calls it leads to find outside. -/
structure Datagram (Env : Type) where
  bytes : List UInt8
  bytes_le : bytes.length ≤ 1024
  env : Env

section Loop

variable (pb : Nanopb D) (narrow : D → F) (ntp : Sntp T Env)

/-- What a handler returns and leaves, given the payload as it is in memory; `none` where
    it dereferences a null driver. -/
def handle (s : Board F T) (env : Env) (payload : List UInt8) : Handler → Option (Int × Board F T)
  | .gyroCmd => some (gyroCmdDispatcher, s)
  | .chassisCommand =>
    let r := chassisCmdHandler narrow s.devices.chassis (pb.navSpeed payload)
    some (r.1, { s with devices := { s.devices with chassis := r.2 } })
  | .nullConfigCmd => some (nullConfigCallback, s)
  | .configChassisType =>
    let r := configChassisTypeFunc s.devices (accepted (pb.chassisDemandConfig payload))
    some (r.1, { s with devices := r.2 })
  | .initMileageParamCommand =>
    (initializeParam s.devices (accepted (pb.chassisConfig payload))).map fun r => (r.1, { s with devices := r.2 })
  | .timeSyncQuery =>
    let r := ntp.ntpQueryHandler s.sntp env
    some (r.1, { s with sntp := r.2 })

/-! ## The loop -/

def recvfrom (inbuf : Nat → UInt8) (bytes : List UInt8) (i : Nat) : UInt8 :=
  if i < bytes.length then bytes.getD i 0 else inbuf i

/-- `memcpy` of four bytes, the lowest first. -/
def word (inbuf : Nat → UInt8) : Nat :=
  (inbuf 0).toNat + 2 ^ 8 * (inbuf 1).toNat + 2 ^ 16 * (inbuf 2).toNat + 2 ^ 24 * (inbuf 3).toNat

/-- `(uint16_t)(nbytes - sizeof(int_ct))`. -/
def lenArg (nbytes : Nat) : Nat := ((nbytes - 4 : Int) % 2 ^ 16).toNat

def payload (inbuf : Nat → UInt8) (len : Nat) : List UInt8 := (List.range len).map fun i => inbuf (4 + i)

/-- `retBuff[0] = 0`. -/
def clearWord (inbuf : Nat → UInt8) (i : Nat) : UInt8 := if i < 4 then 0 else inbuf i

/-- The bytes of the reply, `len` taken as a `uint16_t`. -/
def reply (inbuf : Nat → UInt8) (len : Int) : List UInt8 := (List.range (len % 2 ^ 16).toNat).map inbuf

/-- One turn of the loop: the state it leaves and the reply, if it sends one. -/
def dispatch (s : Board F T) (d : Datagram Env) : Board F T × Option (List UInt8) :=
  if s.fault = true then (s, none)
  else
    let inbuf := recvfrom s.inbuf d.bytes
    let s := { s with inbuf := inbuf }
    let ct := word inbuf
    let len := lenArg d.bytes.length
    match findHandler ct with
    | some h =>
      match handle pb narrow ntp s d.env (payload inbuf len) h with
      | none => ({ s with fault := true }, none)
      | some (ret, s) =>
        let inbuf := clearWord s.inbuf
        let retMsgLen := if ret < 0 then 8 else ret + 4
        ({ s with inbuf := inbuf }, if toInt32 ct > 0xA000 then some (reply inbuf retMsgLen) else none)
    | none =>
      let sntp := if 123 = s.destport then ntp.ntpCalcHandler s.sntp d.env (fun i => inbuf (4 + i)) len else s.sntp
      ({ s with sntp := sntp }, some (reply inbuf 4))

end Loop

end SeerDIOBoard.Dispatch
