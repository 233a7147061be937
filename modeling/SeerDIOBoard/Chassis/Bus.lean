/-
  SeerDIOBoard.Chassis.Bus — the board and its drives, connected by the CAN bus.

  `Chassis.Task` takes what `read` returns for an event. Here the frames that `doInit`,
  `sendSpeedCmd` and `sendQueryCmd` write (src/chassis.cxx) go to two drives, and what
  `read` returns is what the drives have answered, in the order of their answers. With the
  frames goes what they are made from and what is made of them: `sendSpeedCmd` computes the
  velocities of the motors, and `report` the pose and the odometer message.

  Drive `j` has the node number `j + 1`: it listens to 0x601 + `j` and answers with
  0x581 + `j`. It is an SDO server (`Drive.answer`); its encoder turns at any time, and it
  handles the requests it has got one by one, as late as it likes.

  The dispatcher has a higher priority than the chassis task, and may run between any two
  accesses of it. The task's steps are coarser:
  - what `sendSpeedCmd` reads of what a datagram can write is an input (`Found`), and nobody
    else writes the velocities of the motors that it sends;
  - how far a sender has got only the drives see, whose answers are not read before it is
    through;
  - `report` is two steps, up to the return of `doCalc` and from there on. A 0xA005 message
    under `doCalc` would reset the pose and `firstIn` in the middle of a sample; what is shown
    of the heading is shown of runs with no such message while a report is made.

  `answered` and `trail` are history: no step reads them.
-/

import SeerDIOBoard.Can.Rounds
import SeerDIOBoard.Chassis.DrivePath
import SeerDIOBoard.Chassis.InitFrames
import SeerDIOBoard.Lib.Servers
import SeerDIOBoard.Reporter.Odometer

namespace SeerDIOBoard.Chassis

open Function (update)
open Lib.Bytes Lib.Servers
open SeerDIOBoard.Can SeerDIOBoard.Mileage
open SeerDIOBoard.Dispatch (Timeval)
open SeerDIOBoard.Reporter (Odometer Timing)

/-! ## Drives -/

structure Motor where
  /-- In counts; the object that is read holds the low 32 bits. -/
  position : Int
  /-- The object of the target velocity. -/
  target : Int

def isRead (req : Nat → UInt8) : Bool := req 0 >>> 5 = 2

/-- A write of the target velocity: 0x2341, or 0x60ff in position mode. -/
def isTarget (req : Nat → UInt8) : Bool :=
  req 0 >>> 5 = 1 ∧ (req 1 = 0x41 ∧ req 2 = 0x23 ∨ req 1 = 0xff ∧ req 2 = 0x60)

namespace Motor

def handle (m : Motor) (req : Nat → UInt8) : Motor :=
  if isTarget req = true then { m with target := toInt32 (littleEndian ([4, 5, 6, 7].map req)) } else m

/-- Drive `j`, as an SDO server. The board sends nothing else than reads and writes. -/
def drive (m : Motor) (j : Nat) : Drive where
  chId := 0x581 + j
  value := UInt32.ofInt m.position
  other _ := none

end Motor

/-- The drive that takes the frames with this CAN id. -/
def listener (chId : Nat) : Option Nat := if chId = 0x601 then some 0 else if chId = 0x602 then some 1 else none

/-- The drive a frame is from. -/
def sender (msg : CanMsg) : Nat := CChassisDevice.slot msg.chId

def deliver (n : Net (Nat → UInt8) CanMsg) (f : CanTxMsg) : Net (Nat → UInt8) CanMsg :=
  match f.chId.bind listener with
  | some j => n.ask j f.cmData
  | none => n

/-! ## The board -/

structure Bus where
  task : Task ℚ
  can1Open : Bool
  motor : Nat → Motor
  net : Net (Nat → UInt8) CanMsg
  timing : Timing
  /-- The odometer messages that were reported. -/
  reported : List Odometer
  /-- Where each drive was when it answered the last query. -/
  answered : Nat → Option Int
  /-- Where the drives were at the reports since the last reset. -/
  trail : List (Nat → Int)
  /-- What `doCalc` has returned in the report that is being made. -/
  calculated : Option Int

/-- What a step of the chassis task finds beside the state: its locals, as the stack is, the
    clock, and what `CMileage::report` reads of the steering and of the time synchronisation.
    `sendSpeedCmd` copies the three globals of the velocity one by one, and goes to the
    parameters after that; `planarVel` and `param` are what it has read, with one value of
    each parameter. -/
structure Found where
  planarVel : PlanarVel
  param : CMileage
  txMessage : Nat → CanTxMsg
  planarPos : PlanarPos
  steerAngle : ℚ
  steerVel : ℚ
  now : Timeval
  ntpBaseOffset_ns : UInt64

/-- The events of the chassis task's model that stay what they are. -/
def besideBus : Ev ℚ → Bool
  | .task | .read (.frame _) => false
  | _ => true

inductive BusEv where
  | beside (e : Ev ℚ) (h : besideBus e = true)
  | task (l : Found)
  /-- `read` returns the next frame. -/
  | read
  /-- The encoder of drive `j` moves on. -/
  | turn (j : Nat) (d : Int)
  /-- Drive `j` handles a request. -/
  | answer (j : Nat)

namespace Bus

def mileage (s : Bus) : CMileage := s.task.devices.mileage

def setMileage (t : Task ℚ) (m : CMileage) : Task ℚ := { t with devices := { t.devices with mileage := m } }

def write (s : Bus) (frames : List CanTxMsg) : Bus :=
  if s.can1Open = true then { s with net := frames.foldl deliver s.net } else s

/-- A frame for every wheel. -/
def encodeAll (t : Task ℚ) (ct : MotorDriverCmdType) (vel : Nat → Int) (l : Found) : List CanTxMsg :=
  match t.chassis.driverProtocol with
  | none => []
  | some d => (List.range t.numOfWheel).map fun i => d.encode i ct (vel i) (l.txMessage i)

def doInit (s : Bus) : Bus :=
  let frame := s.task.chassis.driverProtocol.bind fun d => d.getInitFrame s.task.numOfWheel s.task.initCount
  { s with task := s.task.step .task }.write frame.toList

/-- The velocities of the motors are computed from what was read, whatever has become of it
    since. -/
def sendSpeedCmd (s : Bus) (l : Found) : Bus :=
  let m := { s.mileage with vel := (l.param.drive l.planarVel).vel }
  { s with task := setMileage (s.task.step .task) m }.write (encodeAll s.task .targetSpeed m.getVel l)

def sendQueryCmd (s : Bus) (l : Found) : Bus :=
  { s with task := s.task.step .task, answered := fun _ => none }.write
    (encodeAll s.task .acturalPos s.mileage.getVel l)

section

variable (ar : Arith)

/-- `report` up to the return of `doCalc`. -/
def calculate (s : Bus) (l : Found) : Bus :=
  let m := s.mileage.readPos s.task.chassis.retVal
  let r := m.doCalc ar l.planarPos (m.getPositions ar fun _ => 0)
  { s with
    task := setMileage s.task r.2
    trail := (if s.mileage.firstIn = true then [] else s.trail) ++ [fun j => (s.answered j).getD 0]
    calculated := some r.1 }

/-- `report` from there on, with the message of `CMileage::report` where it comes to that. -/
def upload (s : Bus) (l : Found) (r : Int) : Bus :=
  let s := { s with task := setMileage (s.task.step .task) s.mileage, calculated := none }
  if 0 = r then
    let msg := Reporter.report ar s.timing
      { mileage := s.mileage, steerAngle := l.steerAngle, steerVel := l.steerVel, now := l.now,
        ntpBaseOffset_ns := l.ntpBaseOffset_ns }
    { s with timing := msg.2, reported := s.reported ++ [msg.1] }
  else s

def report (s : Bus) (l : Found) : Bus :=
  match s.calculated with
  | none => s.calculate ar l
  | some r => s.upload ar l r

def taskStepAt (s : Bus) (l : Found) : Pc → Bus
  | .initMsg => s.doInit
  | .sendSpeed => s.sendSpeedCmd l
  | .sendQuery => s.sendQueryCmd l
  | .report => s.report ar l
  | _ => { s with task := s.task.step .task }

def taskStep (s : Bus) (l : Found) : Bus := if s.task.fault = true then s else s.taskStepAt ar l s.task.pc

def isReading : Pc → Bool
  | .reading _ _ => true
  | _ => false

/-- With nothing to read the task stays in `read`. -/
def readStep (s : Bus) : Bus :=
  match s.net.inbox with
  | [] => s
  | msg :: _ =>
    if s.task.fault = false ∧ isReading s.task.pc = true then
      { s with task := s.task.step (.read (.frame msg)), net := s.net.take }
    else s

def answerStep (s : Bus) (j : Nat) : Bus :=
  match s.net.requests j with
  | [] => s
  | req :: _ =>
    { s with
      motor := update s.motor j ((s.motor j).handle req)
      net := s.net.reply j (((s.motor j).drive j).answer req)
      answered := if isRead req = true then update s.answered j (some (s.motor j).position) else s.answered }

/-- `open` succeeded; nothing else opens the bus. -/
def opens (t : Task ℚ) : Ev ℚ → Bool
  | .opened ok => t.fault = false ∧ t.pc = .openCan ∧ ok = true
  | _ => false

def step (s : Bus) : BusEv → Bus
  | .beside e _ => { s with task := s.task.step e, can1Open := s.can1Open || opens s.task e }
  | .task l => s.taskStep ar l
  | .read => s.readStep
  | .turn j d => { s with motor := update s.motor j { s.motor j with position := (s.motor j).position + d } }
  | .answer j => s.answerStep j

end

def powerUp (protocol : Nat) (retVal : Nat → Int) (retTyp : Nat → MotorDriverCmdType) (encoderLines : Int)
    (motor : Nat → Motor) (timing : Timing) : Bus where
  task := .powerUp protocol retVal retTyp encoderLines
  can1Open := false
  motor := motor
  net := .empty
  timing := timing
  reported := []
  answered _ := none
  trail := []
  calculated := none

end Bus

end SeerDIOBoard.Chassis
