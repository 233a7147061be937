/-
  SeerDIOBoard.Chassis.Device — the chassis device (`CChassisDevice`, src/chassis.cxx,
  src/chassis.h): the driver it has selected, the commanded velocity, the three request
  flags with the semaphore the chassis task waits on, and the replies of the motors.

  Here are its operations, each as one step. `Chassis.Task` runs the same code with the
  other tasks in between. A semaphore is its count. The velocity keeps the type `F` of
  the numbers the board computes with; nothing here looks inside it.

  `_retVal` and `_retTyp` have an entry per wheel; `waitCmdRet` writes the entry it picks
  from the CAN id of the frame (`slot`), for which it has its own two constants.
-/

import Mathlib.Logic.Function.Basic
import Mathlib.Algebra.Notation.Defs
import SeerDIOBoard.Can.Driver

namespace SeerDIOBoard.Chassis

open Function (update)
open SeerDIOBoard.Can

structure CChassisDevice (F : Type) where
  protocol : Nat
  driverProtocol : Option CDriverCanProtocol
  openSem : Nat
  cmdSem : Nat
  bNewSpeedCmd : Bool
  bOdoCmd : Bool
  bStateCmd : Bool
  /-- 0: null, 1: speed, 2: odo, 3: state. -/
  currentCmd : Nat
  oriGlobalX : F
  oriGlobalY : F
  oriGlobalW : F
  retVal : Nat → Int
  retTyp : Nat → MotorDriverCmdType

variable {F : Type}

/-- The constructor. It leaves `_protocol`, `_retVal` and `_retTyp` as the memory is. -/
def CChassisDevice.new [Zero F] (protocol : Nat) (retVal : Nat → Int) (retTyp : Nat → MotorDriverCmdType) :
    CChassisDevice F :=
  { protocol, driverProtocol := none, openSem := 0, cmdSem := 0, bNewSpeedCmd := false, bOdoCmd := false,
    bStateCmd := false, currentCmd := 0, oriGlobalX := 0, oriGlobalY := 0, oriGlobalW := 0, retVal, retTyp }

namespace CChassisDevice

def velocity (c : CChassisDevice F) : F × F × F := (c.oriGlobalX, c.oriGlobalY, c.oriGlobalW)

/-! ## The driver -/

def protocolRL : Nat := 1
def protocolCanOpen : Nat := 2
def protocolCastdservo : Nat := 3
def protocolKeya : Nat := 4
def protocolCanOpenPosition : Nat := 5
def protocolHLS : Nat := 6
def protocolDeltaCanopen : Nat := 7
def protocolKincoCanopen : Nat := 8
def protocolHlsCanopen : Nat := 9
def protocolMotecCanopen : Nat := 11
def protocolJingZhiCanopen : Nat := 12
def protocolMingZhiCanopen : Nat := 13

/-- `setProtocol`, with `n` wheels known at the moment. The brands whose driver is not
    built have their `new` commented out in the source and are accepted all the same. -/
def setProtocol (c : CChassisDevice F) (protoType n : Nat) : Bool × CChassisDevice F :=
  if c.protocol = protoType then (true, c)
  else
    let c := { c with protocol := protoType, driverProtocol := none }
    if protocolRL = protoType then (true, c)
    else if protocolCanOpen = protoType then
      (true, { c with driverProtocol := some (.new (.copleyCAN .speedMode) n) })
    else if protocolCastdservo = protoType then (true, c)
    else if protocolKeya = protoType then (true, c)
    else if protocolCanOpenPosition = protoType then
      (true, { c with driverProtocol := some (.new (.copleyCAN .positionMode) n) })
    else if protocolHLS = protoType then (true, c)
    else if protocolDeltaCanopen = protoType then (true, c)
    else if protocolKincoCanopen = protoType then (true, c)
    else if protocolHlsCanopen = protoType then (true, c)
    else if protocolMotecCanopen = protoType then (true, c)
    else if protocolJingZhiCanopen = protoType then
      (true, { c with driverProtocol := some (.new (.jingZhiCanopen .speedMode) n) })
    else if protocolMingZhiCanopen = protoType then (true, c)
    else (false, c)

def setStart (c : CChassisDevice F) : CChassisDevice F := { c with openSem := c.openSem + 1 }

/-! ## Commands -/

def newSpeedCmd (c : CChassisDevice F) : CChassisDevice F := { c with bNewSpeedCmd := true, cmdSem := c.cmdSem + 1 }

def queryOdoCmd (c : CChassisDevice F) : CChassisDevice F := { c with bOdoCmd := true }

/-- The end of `waitCmd`: the first flag that is set is cleared and becomes the current
    command; with none set the current command stays what it was. -/
def takeCmd (c : CChassisDevice F) : CChassisDevice F :=
  if c.bNewSpeedCmd = true then { c with bNewSpeedCmd := false, currentCmd := 1 }
  else if c.bOdoCmd = true then { c with bOdoCmd := false, currentCmd := 2 }
  else if c.bStateCmd = true then { c with bStateCmd := false, currentCmd := 3 }
  else c

/-- How `sem_wait(&cmdSem)` returns: with a token, or interrupted. -/
inductive Wake where
  | token
  | eintr
  deriving DecidableEq, Repr

/-- `sem_wait(&cmdSem)` with a token. -/
def semTake (c : CChassisDevice F) : CChassisDevice F := { c with cmdSem := c.cmdSem - 1 }

/-- `waitCmd` from the return of `sem_wait` on, and what it returns. -/
def waitCmd (c : CChassisDevice F) : Wake → Int × CChassisDevice F
  | .token =>
    let c := takeCmd (semTake c)
    (c.currentCmd, c)
  | .eintr =>
    if c.bOdoCmd = true then
      let c := takeCmd c
      (c.currentCmd, c)
    else (-1, c)

/-! ## Replies -/

/-- The entry `waitCmdRet` files a frame under. -/
def slot (chId : Nat) : Nat := if chId = 0x581 then 0 else if chId = 0x582 then 1 else 0

/-- The body of `waitCmdRet`'s loop for a frame that was read: the entries it leaves, and
    whether the frame counts as the reply waited for. -/
def receive (c : CChassisDevice F) (d : CDriverCanProtocol) (cmdType : MotorDriverCmdType) (msg : CanMsg) :
    CChassisDevice F × Bool :=
  let temp := slot msg.chId
  let r := d.decode (c.retVal temp) msg
  ({ c with retTyp := update c.retTyp temp r.ct, retVal := update c.retVal temp r.val }, decide (r.ct = cmdType))

end CChassisDevice

end SeerDIOBoard.Chassis
