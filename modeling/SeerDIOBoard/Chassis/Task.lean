/-
  SeerDIOBoard.Chassis.Task — the chassis task (`task_chassis`, src/task_chassis.cxx;
  `doInit`, `waitCmd`, `sendSpeedCmd`, `sendQueryCmd`, `waitCmdRet`, `report` of
  `CChassisDevice`) and what runs beside it.

  Three parties. The chassis task goes through its program one access to shared data at a
  time (`Pc` is the access it does next; `read` and `open` are events of their own, with
  what they return). The dispatcher handles one message at a time: a speed command in
  three steps (`store`, `setFlag`, `post`), a configuration message in one, since it runs
  at a higher priority than the chassis task. The signal handler of the odometry timer
  (`tick`) runs between any two steps once the timer is started; a tick that finds the task
  blocked in `sem_wait` interrupts it. Later entries into `sem_wait` are the last step of
  the round before them, which reads nothing that a tick writes.

  An event that cannot happen in a state leaves the state as it is. Dereferencing a null
  driver is the end of the run (`fault`).

  `took`, `lastRead`, `round` and `brands` are history: no step reads them.
-/

import SeerDIOBoard.Lib.Machine
import SeerDIOBoard.Chassis.Config

namespace SeerDIOBoard.Chassis

open SeerDIOBoard.Can SeerDIOBoard.Mileage

/-- Where the dispatcher is in `chassisCmdHandler`: what it does next. -/
inductive Hpc where
  | idle
  | setFlag
  | post
  deriving DecidableEq, Repr

/-- Where the chassis task is: what it does next. -/
inductive Pc where
  | waitStart
  | waitInited
  | openCan
  | initMsg
  /-- Behind `timer_settime`, in front of the first `sem_wait`. -/
  | timerSet
  /-- `sem_wait(&cmdSem)`. -/
  | semWait
  /-- `errno == EINTR && bOdoCmd`. -/
  | eintr
  | testNew
  | clearNew
  | testOdo
  | clearOdo
  | testState
  | clearState
  /-- `waitCmd` returns `currentCmd`. -/
  | ret
  | sendSpeed
  | sendQuery
  /-- `waitCmdRet(ct)`, at the test of its loop over the wheels. -/
  | waitRet (ct : MotorDriverCmdType) (i : Nat)
  /-- `waitCmdRet(ct)`, at the `read` of turn `i`. -/
  | reading (ct : MotorDriverCmdType) (i : Nat)
  | report
  deriving DecidableEq, Repr

/-- A frame as `waitCmdRet` decoded it. -/
structure Reply where
  chId : Nat
  ct : MotorDriverCmdType
  val : Int
  deriving DecidableEq, Repr

structure Task (F : Type) where
  devices : Devices F
  initCount : InitCount
  pc : Pc
  hpc : Hpc
  fault : Bool
  /-- The last `sem_wait` returned with a token. -/
  took : Bool
  /-- The velocity `sendSpeedCmd` has last read. -/
  lastRead : F × F × F
  /-- The frames read since the last `sendQueryCmd`. -/
  round : List Reply
  /-- The brands of the 0xA004 messages that were acted on. -/
  brands : List Nat

variable {F : Type}

/-- What `read` returns; it delivers one frame exactly when it returns 0. -/
inductive Read where
  | frame (msg : CanMsg)
  | err (status : Int) (h : status ≠ 0)

inductive Ev (F : Type) where
  | store (x y w : F)
  | setFlag
  | post
  | demand (pbMsg : Option ChassisDemandConfig)
  | param (pbMsg : Option ChassisConfig)
  | tick
  | task
  | opened (ok : Bool)
  | read (r : Read)

namespace Task

def chassis (s : Task F) : CChassisDevice F := s.devices.chassis

def numOfWheel (s : Task F) : Nat := s.devices.mileage.numOfWheel

def setChassis (s : Task F) (c : CChassisDevice F) : Task F := { s with devices := { s.devices with chassis := c } }

def goto (s : Task F) (pc : Pc) : Task F := { s with pc := pc }

@[simp] theorem goto_pc (s : Task F) (pc : Pc) : (s.goto pc).pc = pc := rfl

/-- The timer runs. -/
def looping : Pc → Bool
  | .waitStart | .waitInited | .openCan | .initMsg => false
  | _ => true

/-! ## The chassis task -/

def EINTR : Int := 4

/-- Where `waitCmdRet` returns to: after a query the task reports, whatever was returned. -/
def afterWait (ct : MotorDriverCmdType) : Pc := if ct = .acturalPos then .report else .semWait

/-- The loop of `CChassisDevice::report` over the wheels. -/
def setPositions (s : Devices F) : Devices F :=
  { s with mileage := (List.range s.mileage.numOfWheel).foldl (fun m i => m.setPos i (s.chassis.retVal i)) s.mileage }

/-- `encode` goes through the driver, for as many frames as there are wheels. -/
def encodes (s : Task F) (next : Task F) : Task F :=
  if s.chassis.driverProtocol = none ∧ 0 < s.numOfWheel then { next with fault := true } else next

def taskStep (s : Task F) : Pc → Task F
  | .waitStart =>
    if 0 < s.chassis.openSem then
      (s.setChassis { s.chassis with openSem := s.chassis.openSem - 1 }).goto .waitInited
    else s
  | .waitInited => if s.devices.mileage.paramInited = true then s.goto .openCan else s
  | .openCan => s
  | .initMsg =>
    match s.chassis.driverProtocol with
    | none => { s with fault := true }
    | some d =>
      let r := d.getInitMsg s.numOfWheel s.initCount
      { s with initCount := r.2, pc := if r.1 = true then .initMsg else .timerSet }
  | .timerSet => s.goto .semWait
  | .semWait =>
    if 0 < s.chassis.cmdSem then { (s.setChassis s.chassis.semTake).goto .testNew with took := true } else s
  | .eintr => s.goto (if s.chassis.bOdoCmd = true then .testNew else .semWait)
  | .testNew => s.goto (if s.chassis.bNewSpeedCmd = true then .clearNew else .testOdo)
  | .clearNew => (s.setChassis { s.chassis with bNewSpeedCmd := false, currentCmd := 1 }).goto .ret
  | .testOdo => s.goto (if s.chassis.bOdoCmd = true then .clearOdo else .testState)
  | .clearOdo => (s.setChassis { s.chassis with bOdoCmd := false, currentCmd := 2 }).goto .ret
  | .testState => s.goto (if s.chassis.bStateCmd = true then .clearState else .ret)
  | .clearState => (s.setChassis { s.chassis with bStateCmd := false, currentCmd := 3 }).goto .ret
  | .ret =>
    s.goto (if s.chassis.currentCmd = 1 then .sendSpeed else if s.chassis.currentCmd = 2 then .sendQuery else .semWait)
  | .sendSpeed => s.encodes { s.goto (.waitRet .targetSpeed 0) with lastRead := s.chassis.velocity }
  | .sendQuery => s.encodes { s.goto (.waitRet .acturalPos 0) with round := [] }
  | .waitRet ct i => s.goto (if i < s.numOfWheel then .reading ct i else afterWait ct)
  | .reading _ _ => s
  | .report => { s with devices := setPositions s.devices, pc := .semWait }

/-- What `waitCmdRet` makes of a frame. -/
def decoded (s : Task F) (d : CDriverCanProtocol) (msg : CanMsg) : Reply :=
  let r := d.decode (s.chassis.retVal (CChassisDevice.slot msg.chId)) msg
  { chId := msg.chId, ct := r.ct, val := r.val }

def readStep (s : Task F) (ct : MotorDriverCmdType) (i : Nat) : Read → Task F
  | .frame msg =>
    match s.chassis.driverProtocol with
    | none => { s with fault := true }
    | some d =>
      let r := s.chassis.receive d ct msg
      { s.setChassis r.1 with
        round := s.round ++ [s.decoded d msg]
        pc := if r.2 = true then .waitRet ct (i + 1) else .reading ct i }
  | .err status _ => if status = EINTR ∧ s.chassis.bNewSpeedCmd = true then s else s.goto (afterWait ct)

/-! ## The others -/

def storeStep (s : Task F) (x y w : F) : Task F :=
  if s.hpc = .idle then
    { s.setChassis { s.chassis with oriGlobalX := x, oriGlobalY := y, oriGlobalW := w } with hpc := .setFlag }
  else s

def setFlagStep (s : Task F) : Task F :=
  if s.hpc = .setFlag then { s.setChassis { s.chassis with bNewSpeedCmd := true } with hpc := .post } else s

def postStep (s : Task F) : Task F :=
  if s.hpc = .post then { s.setChassis { s.chassis with cmdSem := s.chassis.cmdSem + 1 } with hpc := .idle } else s

def demandStep (s : Task F) (pbMsg : Option ChassisDemandConfig) : Task F :=
  if s.hpc = .idle then
    { s with
      devices := (configChassisTypeFunc s.devices pbMsg).2
      brands := s.brands ++ (acts pbMsg).toList.map fun m => brandArg m.driverBrand }
  else s

def paramStep (s : Task F) (pbMsg : Option ChassisConfig) : Task F :=
  if s.hpc = .idle then
    match initializeParam s.devices pbMsg with
    | some (_, devices) => { s with devices := devices }
    | none => { s with fault := true }
  else s

def tickStep (s : Task F) : Task F :=
  if looping s.pc = true then
    let s := s.setChassis s.chassis.queryOdoCmd
    if s.pc = .semWait ∧ s.chassis.cmdSem = 0 then { s.goto .eintr with took := false } else s
  else s

def step (s : Task F) (e : Ev F) : Task F :=
  if s.fault = true then s
  else
    match e with
    | .store x y w => s.storeStep x y w
    | .setFlag => s.setFlagStep
    | .post => s.postStep
    | .demand pbMsg => s.demandStep pbMsg
    | .param pbMsg => s.paramStep pbMsg
    | .tick => s.tickStep
    | .task => s.taskStep s.pc
    | .opened ok => if s.pc = .openCan then s.goto (if ok = true then .initMsg else .timerSet) else s
    | .read r =>
      match s.pc with
      | .reading ct i => s.readStep ct i r
      | _ => s

def powerUp [Zero F] (protocol : Nat) (retVal : Nat → Int) (retTyp : Nat → MotorDriverCmdType) (encoderLines : Int) :
    Task F where
  devices := { chassis := .new protocol retVal retTyp, mileage := .new encoderLines }
  initCount := { copleyCAN := none, jingZhiCanopen := none }
  pc := .waitStart
  hpc := .idle
  fault := false
  took := false
  lastRead := (0, 0, 0)
  round := []
  brands := []

end Task

end SeerDIOBoard.Chassis
