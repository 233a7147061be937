/-
  SeerDIOBoard.Dispatch.Velocity — the velocity the board drives at, for a host that
  encodes its commands.

  `sendSpeedCmd` copies the three globals of the commanded velocity one by one, and the
  dispatcher, which has the higher priority, may handle a datagram between two of the
  copies. The model of the chassis task copies them in one step; here each copy is an event
  of its own (`load`), and `sent` is what was handed to the kinematics.

  So what is sent can be a mix of two commands (`sent_overtaken`), but it does not stay:
  - `commanded_velocity`: in every state the velocity sent is the last one commanded, or a
    newer one is flagged or being sent; and wherever the task waits in `sem_wait`, its own
    next steps send the last velocity commanded, if that is not the one sent.

  With `sent` for the velocity last read, a state here keeps the invariant of the task's
  model (`Pending`).
-/

import SeerDIOBoard.Chassis.SpeedRequests
import SeerDIOBoard.Dispatch.System

namespace SeerDIOBoard.Dispatch

open Lib.Bytes Lib.Machine
open SeerDIOBoard.Pb (Double Single)
open SeerDIOBoard.Can SeerDIOBoard.Chassis SeerDIOBoard.Mileage

variable {F T Env : Type}

/-! ## The reads of sendSpeedCmd -/

inductive HostEv (F Env : Type) where
  | traffic (t : Traffic Env)
  | chassis (e : Ev F) (h : ownEvent e = true)
  /-- The next of the three copies. -/
  | load

def isTask : Ev F → Bool
  | .task => true
  | _ => false

/-- An event of the chassis task's own. -/
def HostEv.alone : HostEv F Env → Bool
  | .load => true
  | .chassis e _ => isTask e
  | .traffic _ => false

structure Driving (F T : Type) where
  system : System F T
  /-- How many of the globals are copied. -/
  loads : Nat
  /-- The local of `sendSpeedCmd`. -/
  planarVel : F × F × F
  sent : F × F × F

namespace Driving

def task (s : Driving F T) : Chassis.Task F := s.system.task

def InSendSpeed (s : Driving F T) : Prop := s.task.pc = .sendSpeed ∧ s.task.fault = false

instance (s : Driving F T) : Decidable s.InSendSpeed := inferInstanceAs (Decidable (_ ∧ _))

def loadStep (s : Driving F T) : Driving F T :=
  let c := s.task.chassis
  match s.loads with
  | 0 => { s with loads := 1, planarVel := (c.oriGlobalX, s.planarVel.2) }
  | 1 => { s with loads := 2, planarVel := (s.planarVel.1, c.oriGlobalY, s.planarVel.2.2) }
  | 2 => { s with loads := 3, planarVel := (s.planarVel.1, s.planarVel.2.1, c.oriGlobalW) }
  | _ => s

section Step

variable (float : Single → ℚ) (narrow : Double → F) (ntp : Sntp T Env)

/-- The rest of `sendSpeedCmd`, once everything is copied. -/
def sendStep (s : Driving F T) : Driving F T :=
  if s.loads < 3 then s
  else
    { s with
      system := s.system.step (nanopb float) narrow ntp (.chassis .task rfl)
      loads := 0
      sent := s.planarVel }

def step (s : Driving F T) : HostEv F Env → Driving F T
  | .traffic t => { s with system := s.system.step (nanopb float) narrow ntp (.datagram t.datagram) }
  | .load => if s.InSendSpeed then s.loadStep else s
  | .chassis e h =>
    if isTask e = true ∧ s.InSendSpeed then s.sendStep float narrow ntp
    else { s with system := s.system.step (nanopb float) narrow ntp (.chassis e h) }

end Step

def powerUp [Zero F] (inbuf : Nat → UInt8) (destport protocol : Nat) (retVal : Nat → Int)
    (retTyp : Nat → MotorDriverCmdType) (encoderLines : Int) (sntp : T) : Driving F T where
  system := .powerUp inbuf destport protocol retVal retTyp encoderLines sntp
  loads := 0
  planarVel := (0, 0, 0)
  sent := (0, 0, 0)

end Driving

/-- The velocity of an encoded speed command. -/
def sentVelocity (narrow : Double → F) (m : Pb.navSpeedFields.Msg) : F × F × F := velocityOf narrow (navSpeedOf m)

/-- The velocity commanded after an event, `v` before it. -/
def commandedBy (narrow : Double → F) (v : F × F × F) : HostEv F Env → F × F × F
  | .traffic (.command (.chassisCmd m) _) => sentVelocity narrow m
  | _ => v

def lastCommanded [Zero F] (narrow : Double → F) (es : List (HostEv F Env)) : F × F × F :=
  es.foldl (commandedBy narrow) (0, 0, 0)

/-! ## A datagram -/

/-- What a speed command, or a message that is none, does to the task's side. -/
structure Commands (v : F × F × F) (t t' : Chassis.Task F) : Prop where
  velocity : t'.chassis.velocity = v
  pc : t'.pc = t.pc
  flag : t'.chassis.bNewSpeedCmd = true ∨ v = t.chassis.velocity ∧ t'.chassis.bNewSpeedCmd = t.chassis.bNewSpeedCmd

theorem Commands.refl (t : Chassis.Task F) : Commands t.chassis.velocity t t := ⟨rfl, rfl, Or.inr ⟨rfl, rfl⟩⟩

theorem commands_of_config {t t' : Chassis.Task F} (h : Task.OnlyConfig t t') : Commands t.chassis.velocity t t' := by
  obtain ⟨p, d, n, hc⟩ := h.chassis
  refine ⟨?_, h.pc, Or.inr ⟨rfl, ?_⟩⟩
  · rw [hc]
    rfl
  · rw [hc]

section Datagram

variable (float : Single → ℚ) (narrow : Double → F) (ntp : Sntp T Env)

theorem events_command {s : Board F T} (hf : s.fault = false) (c : Command) (env : Env) :
    events (nanopb float) narrow s (c.datagram env) = eventsOf (nanopb float) narrow c.body c.handler := by
  rw [events, Command.datagram, invocation_wireDatagram hf c.word_lt c.findHandler_word]
  dsimp only
  rw [wireDatagram, payload_wireDatagram s.inbuf c.word c.body_length_le]

theorem events_other {s : Board F T} {d : Datagram Env} (h4 : 4 ≤ d.bytes.length)
    (hw : word (fun i => d.bytes.getD i 0) ∉ Command.words) : events (nanopb float) narrow s d = [] := by
  cases hinv : invocation s d with
  | none => rw [events, hinv]
  | some v =>
    rw [events, hinv]
    have hfind : findHandler (word fun i => d.bytes.getD i 0) = some v.handler := by
      rw [invocation] at hinv
      split at hinv
      · cases hinv
      · obtain ⟨k, hk, rfl⟩ := Option.map_eq_some_iff.mp hinv
        rw [← word_recvfrom s.inbuf h4]
        exact hk
    have hidle := setsDevices_of_word hfind hw
    dsimp only
    cases hk : v.handler with
    | gyroCmd | nullConfigCmd | timeSyncQuery => rfl
    | chassisCommand | configChassisType | initMileageParamCommand =>
      rw [hk] at hidle
      cases hidle

theorem task_chassisCmd {s : System F T} (h : s.task.hpc = .idle) (hf : s.task.fault = false) (m : Pb.navSpeedFields.Msg)
    (env : Env) :
    (s.step (nanopb float) narrow ntp (.datagram (Traffic.command (.chassisCmd m) env).datagram)).task =
      s.task.setChassis ({ s.task.chassis with
        oriGlobalX := narrow m.1
        oriGlobalY := narrow m.2.1
        oriGlobalW := narrow m.2.2.1 } : CChassisDevice F).newSpeedCmd := by
  rw [task_datagram (nanopb float) narrow ntp h, Traffic.datagram,
    events_command float narrow (show s.board.fault = false from hf)]
  simp only [Command.handler, eventsOf, nanopb, Command.body]
  rw [decodeInto_msgBytes (by decide), run_speed hf h]
  rfl

theorem commands_traffic {s : System F T} (h : s.task.hpc = .idle) (hf : s.task.fault = false) (t : Traffic Env) :
    Commands (commandedBy narrow s.task.chassis.velocity (.traffic t : HostEv F Env)) s.task
      (s.step (nanopb float) narrow ntp (.datagram t.datagram)).task := by
  cases t with
  | other d h4 hw =>
    rw [task_datagram (nanopb float) narrow ntp h, Traffic.datagram, events_other float narrow h4 hw]
    exact .refl s.task
  | command c env =>
    cases c with
    | chassisCmd m =>
      rw [task_chassisCmd float narrow ntp h hf]
      exact ⟨rfl, rfl, Or.inl rfl⟩
    | chassisDemand m =>
      rw [task_datagram (nanopb float) narrow ntp h, Traffic.datagram,
        events_command float narrow (show s.board.fault = false from hf)]
      simp only [Command.handler, eventsOf, run_cons, run_nil]
      rw [Task.step, if_neg (by rw [hf]; exact Bool.false_ne_true)]
      exact commands_of_config (Task.onlyConfig_demandStep s.task _)
    | chassisConfig m =>
      rw [task_datagram (nanopb float) narrow ntp h, Traffic.datagram,
        events_command float narrow (show s.board.fault = false from hf)]
      simp only [Command.handler, eventsOf, run_cons, run_nil]
      rw [Task.step, if_neg (by rw [hf]; exact Bool.false_ne_true)]
      exact commands_of_config (Task.onlyConfig_paramStep s.task _)

end Datagram

/-! ## The chassis task's steps -/

theorem readStep_lastRead (t : Chassis.Task F) (v : F × F × F) (ct : MotorDriverCmdType) (i : Nat) (r : Read) :
    ({ t with lastRead := v } : Chassis.Task F).readStep ct i r = { t.readStep ct i r with lastRead := v } := by
  cases r with
  | frame msg =>
    simp only [Task.readStep, Task.setChassis, Task.chassis]
    cases hd : t.devices.chassis.driverProtocol with
    | none => rfl
    | some d => rfl
  | err status hs =>
    simp only [Task.readStep, Task.goto, Task.chassis]
    by_cases hb : status = Task.EINTR ∧ t.devices.chassis.bNewSpeedCmd = true
    · simp only [hb, and_self, if_true]
    · simp only [hb, if_false]

theorem taskStep_lastRead (t : Chassis.Task F) (v : F × F × F) {pc : Chassis.Pc} (h : pc ≠ .sendSpeed) :
    ({ t with lastRead := v } : Chassis.Task F).taskStep pc = { t.taskStep pc with lastRead := v } := by
  cases pc with
  | sendSpeed => exact absurd rfl h
  | sendQuery =>
    simp only [Task.taskStep, Task.encodes, Task.goto, Task.chassis, Task.numOfWheel]
    by_cases hb : t.devices.chassis.driverProtocol = none ∧ 0 < t.devices.mileage.numOfWheel
    · simp only [hb, and_self, if_true]
    · simp only [hb, if_false]
  | initMsg =>
    simp only [Task.taskStep, Task.chassis]
    cases hd : t.devices.chassis.driverProtocol with
    | none => rfl
    | some d => rfl
  | waitStart =>
    simp only [Task.taskStep, Task.setChassis, Task.goto, Task.chassis]
    by_cases hb : 0 < t.devices.chassis.openSem
    · simp only [hb, if_true]
    · simp only [hb, if_false]
  | waitInited =>
    simp only [Task.taskStep, Task.goto]
    by_cases hb : t.devices.mileage.paramInited = true
    · simp only [hb, if_true]
    · simp only [hb, if_false, Bool.false_eq_true]
  | semWait =>
    simp only [Task.taskStep, Task.setChassis, Task.goto, Task.chassis]
    by_cases hb : 0 < t.devices.chassis.cmdSem
    · simp only [hb, if_true]
    · simp only [hb, if_false]
  | _ => rfl

/-- What `sendSpeedCmd` has read is no part of any other step. -/
theorem step_lastRead (t : Chassis.Task F) (v : F × F × F) {e : Ev F} (he : ownEvent e = true)
    (h : ¬ (isTask e = true ∧ t.pc = .sendSpeed ∧ t.fault = false)) :
    ({ t with lastRead := v } : Chassis.Task F).step e = { t.step e with lastRead := v } := by
  unfold Task.step
  dsimp only
  by_cases hf : t.fault = true
  · rw [if_pos hf, if_pos hf]
  rw [if_neg hf, if_neg hf]
  cases e with
  | store x y w => cases he
  | setFlag => cases he
  | post => cases he
  | demand pbMsg => cases he
  | param pbMsg => cases he
  | tick =>
    simp only [Task.tickStep, Task.setChassis, Task.goto, Task.chassis]
    split
    · by_cases hb : t.pc = .semWait ∧ t.devices.chassis.queryOdoCmd.cmdSem = 0
      · simp only [hb, and_self, if_true]
      · simp only [hb, if_false]
    · rfl
  | opened ok => dsimp only; split <;> rfl
  | read r =>
    dsimp only
    split
    · exact readStep_lastRead t v _ _ r
    · rfl
  | task =>
    refine taskStep_lastRead t v ?_
    intro hpc
    exact h ⟨rfl, hpc, Bool.eq_false_of_not_eq_true hf⟩

theorem taskStep_pc_ne {t : Chassis.Task F} (hr : t.pc ≠ .ret) (hs : t.pc ≠ .sendSpeed) :
    (t.taskStep t.pc).pc ≠ .sendSpeed := by
  intro hpc
  cases hp : t.pc with
  | ret => exact hr hp
  | sendSpeed => exact hs hp
  | openCan | reading =>
    rw [hp] at hpc
    cases hp.symm.trans hpc
  | timerSet | clearNew | clearOdo | clearState | report =>
    rw [hp] at hpc
    cases hpc
  | eintr | testNew | testOdo | testState =>
    rw [hp] at hpc
    simp only [Task.taskStep, Task.goto] at hpc
    split at hpc <;> cases hpc
  | waitRet ct i =>
    rw [hp] at hpc
    simp only [Task.taskStep, Task.goto] at hpc
    split at hpc
    · cases hpc
    · cases ct <;> cases hpc
  | waitStart | waitInited | semWait =>
    rw [hp] at hpc
    simp only [Task.taskStep] at hpc
    split at hpc
    · cases hpc
    · cases hp.symm.trans hpc
  | sendQuery =>
    rw [hp] at hpc
    simp only [Task.taskStep, Task.encodes] at hpc
    split at hpc <;> cases hpc
  | initMsg =>
    rw [hp] at hpc
    simp only [Task.taskStep] at hpc
    split at hpc
    · cases hp.symm.trans hpc
    · dsimp only at hpc
      split at hpc <;> cases hpc

/-- Only the return of `waitCmd` gets the task to `sendSpeedCmd`, and nothing beside it
    touches the flag while it is there. -/
theorem enters_sendSpeed {t : Chassis.Task F} {e : Ev F} (he : ownEvent e = true)
    (h : ¬ (isTask e = true ∧ t.pc = .sendSpeed ∧ t.fault = false)) (hpc : (t.step e).pc = .sendSpeed) :
    t.pc = .ret ∨ t.pc = .sendSpeed ∧ (t.step e).chassis.bNewSpeedCmd = t.chassis.bNewSpeedCmd := by
  unfold Task.step at hpc ⊢
  by_cases hf : t.fault = true
  · rw [if_pos hf] at hpc ⊢
    exact Or.inr ⟨hpc, rfl⟩
  rw [if_neg hf] at hpc ⊢
  cases e with
  | store x y w => cases he
  | setFlag => cases he
  | post => cases he
  | demand pbMsg => cases he
  | param pbMsg => cases he
  | tick =>
    dsimp only [Task.tickStep] at hpc ⊢
    split at hpc
    case isTrue hl =>
      rw [if_pos hl]
      split at hpc
      · cases hpc
      case isFalse hb =>
        rw [if_neg hb]
        exact Or.inr ⟨hpc, rfl⟩
    case isFalse hl =>
      rw [if_neg hl]
      exact Or.inr ⟨hpc, rfl⟩
  | opened ok =>
    dsimp only at hpc
    split at hpc
    · cases ok <;> cases hpc
    case isFalse ho =>
      dsimp only
      rw [if_neg ho]
      exact Or.inr ⟨hpc, rfl⟩
  | read r =>
    dsimp only at hpc
    split at hpc
    case h_1 ct i hr =>
      exfalso
      cases r with
      | frame msg =>
        simp only [Task.readStep] at hpc
        split at hpc
        · rw [hr] at hpc
          cases hpc
        · dsimp only at hpc
          split at hpc <;> cases hpc
      | err status hs =>
        simp only [Task.readStep] at hpc
        split at hpc
        · rw [hr] at hpc
          cases hpc
        · cases ct <;> cases hpc
    case h_2 hno =>
      exact Or.inr ⟨hpc, rfl⟩
  | task =>
    by_cases hr : t.pc = .ret
    · exact Or.inl hr
    · refine absurd hpc (taskStep_pc_ne hr ?_)
      intro hp
      exact h ⟨rfl, hp, Bool.eq_false_of_not_eq_true hf⟩

theorem stays_sendSpeed {t : Chassis.Task F} {e : Ev F} (he : ownEvent e = true)
    (h : ¬ (isTask e = true ∧ t.pc = .sendSpeed ∧ t.fault = false)) (hpc : t.pc = .sendSpeed) :
    (t.step e).pc = .sendSpeed := by
  unfold Task.step
  split
  · exact hpc
  case isFalse hf =>
    cases e with
    | store x y w => cases he
    | setFlag => cases he
    | post => cases he
    | demand pbMsg => cases he
    | param pbMsg => cases he
    | task => exact absurd ⟨rfl, hpc, Bool.eq_false_of_not_eq_true hf⟩ h
    | tick =>
      dsimp only [Task.tickStep]
      split
      · split
        case isTrue hb => cases hpc.symm.trans hb.1
        · exact hpc
      · exact hpc
    | opened ok =>
      dsimp only
      split
      case isTrue ho => cases hpc.symm.trans ho
      · exact hpc
    | read r =>
      dsimp only
      split
      case h_1 ct i hr => cases hpc.symm.trans hr
      · exact hpc

theorem velocity_own (t : Chassis.Task F) {e : Ev F} (h : ownEvent e = true) :
    (t.step e).chassis.velocity = t.chassis.velocity := by
  unfold Task.step
  split
  · rfl
  cases e with
  | store x y w => cases h
  | setFlag => cases h
  | post => cases h
  | demand pbMsg => cases h
  | param pbMsg => cases h
  | tick =>
    dsimp only [Task.tickStep]
    split
    · split <;> rfl
    · rfl
  | task =>
    dsimp only
    cases t.pc with
    | waitStart => simp only [Task.taskStep]; split <;> rfl
    | waitInited => simp only [Task.taskStep]; split <;> rfl
    | initMsg => simp only [Task.taskStep]; split <;> rfl
    | semWait => simp only [Task.taskStep]; split <;> rfl
    | sendSpeed => simp only [Task.taskStep, Task.encodes]; split <;> rfl
    | sendQuery => simp only [Task.taskStep, Task.encodes]; split <;> rfl
    | _ => rfl
  | opened ok => dsimp only; split <;> rfl
  | read r =>
    dsimp only
    split
    · cases r with
      | frame msg => simp only [Task.readStep]; split <;> rfl
      | err status hs => simp only [Task.readStep]; split <;> rfl
    · rfl

/-! ## The invariant -/

namespace Driving

/-- The state of the task's model, with what was sent for what was read. -/
def view (s : Driving F T) : Chassis.Task F := { s.task with lastRead := s.sent }

/-- The copies taken so far are of the velocity there is. -/
def Agrees (s : Driving F T) : Prop :=
  (1 ≤ s.loads → s.planarVel.1 = s.task.chassis.oriGlobalX) ∧
    (2 ≤ s.loads → s.planarVel.2.1 = s.task.chassis.oriGlobalY) ∧
    (3 ≤ s.loads → s.planarVel.2.2 = s.task.chassis.oriGlobalW)

structure Inv (s : Driving F T) : Prop where
  idle : s.task.hpc = .idle
  pending : Task.Pending s.view
  /-- A copy that is no longer true has a newer command behind it. -/
  agrees : s.task.pc = .sendSpeed → s.Agrees ∨ s.task.chassis.bNewSpeedCmd = true
  loads : s.task.pc ≠ .sendSpeed → s.loads = 0

theorem agrees_zero {s : Driving F T} (h : s.loads = 0) : s.Agrees := by
  rw [Agrees, h]
  exact ⟨fun h => by omega, fun h => by omega, fun h => by omega⟩

theorem Agrees.loadStep {s : Driving F T} (h : s.Agrees) : s.loadStep.Agrees := by
  obtain ⟨hx, hy, hw⟩ := h
  unfold Driving.loadStep
  dsimp only
  split
  case h_1 h0 =>
    exact ⟨fun _ => rfl, fun h => absurd (show 2 ≤ 1 from h) (by decide), fun h => absurd (show 3 ≤ 1 from h) (by decide)⟩
  case h_2 h1 => exact ⟨fun _ => hx (by omega), fun _ => rfl, fun h => absurd (show 3 ≤ 2 from h) (by decide)⟩
  case h_3 h2 => exact ⟨fun _ => hx (by omega), fun _ => hy (by omega), fun _ => rfl⟩
  case h_4 => exact ⟨hx, hy, hw⟩

/-- The rest of a state is not touched by the copies. -/
theorem loadStep_rest (s : Driving F T) : s.loadStep.system = s.system ∧ s.loadStep.sent = s.sent := by
  unfold loadStep
  dsimp only
  split <;> exact ⟨rfl, rfl⟩

theorem Agrees.of_velocity {s s' : Driving F T} (h : s.Agrees) (hloads : s'.loads = s.loads)
    (hvel : s'.planarVel = s.planarVel) (hc : s'.task.chassis.velocity = s.task.chassis.velocity) : s'.Agrees := by
  obtain ⟨hx, hyw⟩ := Prod.mk.inj hc
  obtain ⟨hy, hw⟩ := Prod.mk.inj hyw
  rw [Agrees, hloads, hvel, hx, hy, hw]
  exact h

theorem Agrees.planarVel {s : Driving F T} (h : s.Agrees) (h3 : ¬ s.loads < 3) :
    s.planarVel = s.task.chassis.velocity :=
  Prod.ext (h.1 (by omega)) (Prod.ext (h.2.1 (by omega)) (h.2.2 (by omega)))

section Steps

variable (float : Single → ℚ) (narrow : Double → F) (ntp : Sntp T Env)

theorem view_traffic {s : Driving F T} (h : s.task.hpc = .idle) (t : Traffic Env) :
    (s.step float narrow ntp (.traffic t)).view =
      run Task.step s.view (events (nanopb float) narrow s.system.board t.datagram) :=
  task_datagram (nanopb float) narrow ntp (s := { s.system with task := s.view }) h t.datagram

theorem task_fault {s : System F T} (hf : s.task.fault = true) (t : Traffic Env) :
    (s.step (nanopb float) narrow ntp (.datagram t.datagram)).task.chassis = s.task.chassis := by
  rw [System.step, turn_fault (s := s.board) (nanopb float) narrow ntp t.datagram hf]
  rfl

theorem inv_traffic {s : Driving F T} (h : s.Inv) (t : Traffic Env) : (s.step float narrow ntp (.traffic t)).Inv := by
  refine ⟨h.idle, ?_, ?_, h.loads⟩
  · rw [view_traffic float narrow ntp h.idle t]
    exact inv_run_all Task.step_pending _ _ h.pending
  · intro hpc
    by_cases hf : s.task.fault = true
    · rw [Agrees, show (s.step float narrow ntp (.traffic t)).task.chassis = s.task.chassis from
        task_fault float narrow ntp hf t]
      exact h.agrees hpc
    have hc := commands_traffic float narrow ntp h.idle (Bool.eq_false_of_not_eq_true hf) t
    rcases hc.flag with hflag | ⟨hsame, hflag⟩
    · exact Or.inr hflag
    · rcases h.agrees hpc with hagree | hset
      · exact Or.inl (hagree.of_velocity rfl rfl (hc.velocity.trans hsame))
      · exact Or.inr (hflag.trans hset)

theorem inv_load {s : Driving F T} (h : s.Inv) : (s.step float narrow ntp .load).Inv := by
  rw [step]
  split
  case isTrue hin =>
    obtain ⟨hsys, hsent⟩ := s.loadStep_rest
    have htask : s.loadStep.task = s.task := congrArg System.task hsys
    refine ⟨?_, ?_, ?_, ?_⟩
    · rw [htask]
      exact h.idle
    · rw [view, htask, hsent]
      exact h.pending
    · intro _
      rw [htask]
      rcases h.agrees hin.1 with hagree | hset
      · exact Or.inl hagree.loadStep
      · exact Or.inr hset
    · intro hpc
      rw [htask] at hpc
      exact absurd hin.1 hpc
  case isFalse => exact h

theorem inv_send {s : Driving F T} (h : s.Inv) (hin : s.InSendSpeed) : (s.sendStep float narrow ntp).Inv := by
  rw [sendStep]
  split
  case isTrue => exact h
  case isFalse h3 =>
    have hstep : s.task.step .task =
        s.task.encodes { s.task.goto (.waitRet .targetSpeed 0) with lastRead := s.task.chassis.velocity } := by
      rw [Task.step, if_neg (by rw [hin.2]; exact Bool.false_ne_true)]
      dsimp only
      rw [hin.1]
      rfl
    obtain ⟨hview, hpc, -, hchassis⟩ :=
      s.task.encodes_view { s.task.goto (.waitRet .targetSpeed 0) with lastRead := s.task.chassis.velocity }
    rw [← hstep] at hview hpc hchassis
    have hc : (s.task.step .task).chassis = s.task.chassis := hchassis
    have hnot : (s.task.step .task).pc ≠ .sendSpeed := by
      rw [hpc]
      exact Chassis.Pc.noConfusion
    refine ⟨hview.hpc.trans h.idle, ⟨?_, ?_⟩, fun he => absurd he hnot, fun _ => rfl⟩
    · show (s.task.step .task).chassis.bNewSpeedCmd = true → _ → _ → 0 < (s.task.step .task).chassis.cmdSem
      rw [hc]
      intro hb _ _
      refine h.pending.token hb ?_ ?_
      · show s.task.hpc ≠ .post
        rw [h.idle]
        exact Chassis.Hpc.noConfusion
      · rintro ⟨-, he | he⟩
        · cases hin.1.symm.trans he
        · cases hin.1.symm.trans he
    · show (s.task.step .task).chassis.velocity ≠ s.planarVel → _ ∨ (s.task.step .task).chassis.bNewSpeedCmd = true ∨ _
      rw [hc]
      intro hne
      rcases h.agrees hin.1 with hagree | hset
      · exact absurd (hagree.planarVel h3).symm hne
      · exact Or.inr (Or.inl hset)

theorem inv_own {s : Driving F T} (h : s.Inv) {e : Ev F} (he : ownEvent e = true)
    (hno : ¬ (isTask e = true ∧ s.InSendSpeed)) :
    ({ s with system := s.system.step (nanopb float) narrow ntp (.chassis e he : SystemEv F Env) } : Driving F T).Inv := by
  refine ⟨(hpc_own he).trans h.idle, ?_, ?_, ?_⟩
  · have hp := Task.step_pending s.view e h.pending
    rw [view, step_lastRead s.task s.sent he hno] at hp
    exact hp
  · intro hpc
    rcases enters_sendSpeed he hno hpc with hret | ⟨hsend, hflag⟩
    · exact Or.inl (agrees_zero (h.loads (by rw [hret]; exact Chassis.Pc.noConfusion)))
    · rcases h.agrees hsend with hagree | hset
      · exact Or.inl (hagree.of_velocity rfl rfl (velocity_own s.task he))
      · exact Or.inr (hflag.trans hset)
  · intro hpc
    exact h.loads fun hsend => hpc (stays_sendSpeed he hno hsend)

theorem inv_step {s : Driving F T} (h : s.Inv) (e : HostEv F Env) : (s.step float narrow ntp e).Inv := by
  cases e with
  | traffic t => exact inv_traffic float narrow ntp h t
  | load => exact inv_load float narrow ntp h
  | chassis e he =>
    rw [step]
    split
    case isTrue hin => exact inv_send float narrow ntp h hin.2
    case isFalse hno => exact inv_own float narrow ntp h he hno

/-! ## Runs -/

theorem fault_step {s : Driving F T} (h : s.task.fault = true) (e : HostEv F Env) :
    (s.step float narrow ntp e).task.fault = true := by
  cases e with
  | traffic t =>
    show (turn (nanopb float) narrow ntp s.system.board t.datagram).fault = true
    rw [turn_fault (s := s.system.board) (nanopb float) narrow ntp t.datagram h]
    exact h
  | load =>
    rw [step]
    split
    · rw [task, s.loadStep_rest.1]
      exact h
    · exact h
  | chassis e he =>
    rw [step]
    split
    case isTrue hin => cases h.symm.trans hin.2.2
    case isFalse =>
      show (s.task.step e).fault = true
      unfold Task.step
      rw [if_pos h]
      exact h

theorem velocity_step {s : Driving F T} (h : s.task.hpc = .idle) (hf : s.task.fault = false) (e : HostEv F Env) :
    (s.step float narrow ntp e).task.chassis.velocity = commandedBy narrow s.task.chassis.velocity e := by
  cases e with
  | traffic t => exact (commands_traffic float narrow ntp h hf t).velocity
  | load =>
    rw [step]
    split
    · rw [task, s.loadStep_rest.1]
      rfl
    · rfl
  | chassis e he =>
    rw [step]
    split
    · rw [sendStep]
      split
      · rfl
      · exact velocity_own s.task (e := .task) rfl
    · exact velocity_own s.task he

theorem velocity_run (es : List (HostEv F Env)) {s : Driving F T} (h : s.Inv)
    (hf : (run (step float narrow ntp) s es).task.fault = false) :
    (run (step float narrow ntp) s es).task.chassis.velocity = es.foldl (commandedBy narrow) s.task.chassis.velocity := by
  induction es generalizing s with
  | nil => rfl
  | cons e es ih =>
    have hfault : s.task.fault = false := by
      refine Bool.eq_false_of_not_eq_true fun hs => ?_
      have hrun := inv_run_all (I := fun s : Driving F T => s.task.fault = true)
        (fun _ e hs => fault_step float narrow ntp hs e) (e :: es) s hs
      cases hf.symm.trans hrun
    rw [run_cons, ih (inv_step float narrow ntp h e) hf, List.foldl_cons, velocity_step float narrow ntp h.idle hfault]

/-! ## What is sent -/

/-- The same with the task elsewhere. -/
def withTask (s : Driving F T) (t : Chassis.Task F) : Driving F T := { s with system := { s.system with task := t } }

theorem step_withTask (s : Driving F T) {t u : Chassis.Task F} (hf : t.fault = false) (hpc : t.pc ≠ .sendSpeed)
    (ht : t.taskStep t.pc = u) :
    (s.withTask t).step float narrow ntp (.chassis .task rfl) = s.withTask u := by
  have hstep : t.step .task = u := by
    rw [← ht, Task.step, if_neg (by rw [hf]; exact Bool.false_ne_true)]
  unfold step
  dsimp only
  rw [if_neg fun h => hpc h.2.1]
  exact congrArg s.withTask hstep

/-- The task by itself from `sem_wait` to `sendSpeedCmd`, where a command is flagged. -/
theorem run_take {s : Driving F T} (hf : s.task.fault = false) (hpc : s.task.pc = .semWait)
    (hsem : 0 < s.task.chassis.cmdSem) (hb : s.task.chassis.bNewSpeedCmd = true) :
    ∃ t : Chassis.Task F, t.pc = .sendSpeed ∧ t.fault = false ∧ t.chassis.velocity = s.task.chassis.velocity ∧
      run (step float narrow ntp) s (List.replicate 4 (.chassis .task rfl)) = s.withTask t := by
  let t1 : Chassis.Task F := { (s.task.setChassis s.task.chassis.semTake).goto .testNew with took := true }
  let t2 := t1.goto .clearNew
  let t3 := (t2.setChassis { t2.chassis with bNewSpeedCmd := false, currentCmd := 1 }).goto .ret
  have h1 : s.task.taskStep s.task.pc = t1 := by
    rw [hpc]
    exact if_pos hsem
  have h2 : t1.taskStep t1.pc = t2 := congrArg t1.goto (if_pos hb)
  refine ⟨t3.goto .sendSpeed, rfl, hf, rfl, ?_⟩
  rw [show s = s.withTask s.task from rfl]
  simp only [List.replicate, run_cons, run_nil]
  rw [step_withTask float narrow ntp s hf (by rw [hpc]; exact Chassis.Pc.noConfusion) h1,
    step_withTask float narrow ntp s (t := t1) hf Chassis.Pc.noConfusion h2,
    step_withTask float narrow ntp s (t := t2) (u := t3) hf Chassis.Pc.noConfusion rfl,
    step_withTask float narrow ntp s (t := t3) (u := t3.goto .sendSpeed) hf Chassis.Pc.noConfusion rfl]
  rfl

theorem step_load {system : System F T} {v : F × F × F}
    (hin : system.task.pc = .sendSpeed ∧ system.task.fault = false) (k : Nat) (planarVel : F × F × F) :
    (⟨system, k, planarVel, v⟩ : Driving F T).step float narrow ntp .load = loadStep ⟨system, k, planarVel, v⟩ := if_pos hin

theorem step_send {system : System F T} {v : F × F × F}
    (hin : system.task.pc = .sendSpeed ∧ system.task.fault = false) (planarVel : F × F × F) :
    ((⟨system, 3, planarVel, v⟩ : Driving F T).step float narrow ntp (.chassis .task rfl)).sent = planarVel := by
  unfold step
  dsimp only
  rw [if_pos ⟨rfl, hin⟩]
  rfl

/-- The rest of `sendSpeedCmd`, with nothing in between. -/
theorem run_send {s : Driving F T} (hin : s.InSendSpeed) (h0 : s.loads = 0) :
    (run (step float narrow ntp) s [.load, .load, .load, .chassis .task rfl]).sent = s.task.chassis.velocity := by
  obtain ⟨system, loads, planarVel, sent⟩ := s
  obtain rfl : loads = 0 := h0
  simp only [run_cons, run_nil, step_load float narrow ntp hin, loadStep]
  exact step_send float narrow ntp hin _

/-- A command between the first two copies: x is still that of the command before. -/
theorem sent_overtaken {s : Driving F T} (h : s.task.hpc = .idle) (hin : s.InSendSpeed) (h0 : s.loads = 0)
    (m : Pb.navSpeedFields.Msg) (env : Env) :
    (run (step float narrow ntp) s
      [.load, .traffic (.command (.chassisCmd m) env), .load, .load, .chassis .task rfl]).sent =
      (s.task.chassis.velocity.1, (sentVelocity narrow m).2) := by
  obtain ⟨system, loads, planarVel, sent⟩ := s
  obtain rfl : loads = 0 := h0
  generalize hs : system.step (nanopb float) narrow ntp (.datagram (Traffic.command (.chassisCmd m) env).datagram) = system'
  have htask : system'.task = _ := hs ▸ task_chassisCmd float narrow ntp h hin.2 m env
  have hin' : system'.task.pc = .sendSpeed ∧ system'.task.fault = false := by
    rw [htask]
    exact hin
  have htraffic : ∀ k v, (⟨system, k, v, sent⟩ : Driving F T).step float narrow ntp (.traffic (.command (.chassisCmd m) env)) =
      ⟨system', k, v, sent⟩ := by
    intro k v
    rw [← hs]
    rfl
  simp only [run_cons, run_nil, step_load float narrow ntp hin, loadStep, htraffic, step_load float narrow ntp hin']
  refine (step_send float narrow ntp hin' _).trans ?_
  show (system.task.chassis.oriGlobalX, system'.task.chassis.oriGlobalY, system'.task.chassis.oriGlobalW) = _
  rw [htask]
  rfl

/-- What a state has to do with the last velocity commanded, `v`. -/
structure Obeys (s : Driving F T) (v : F × F × F) : Prop where
  /-- It is sent, or flagged, or being sent. -/
  now : s.task.fault = false →
    s.sent = v ∨ s.task.chassis.bNewSpeedCmd = true ∨ (s.task.pc = .ret ∧ s.task.chassis.currentCmd = 1) ∨
      s.task.pc = .sendSpeed
  /-- From `sem_wait` the task's own steps send it. -/
  later : s.task.fault = false → s.task.pc = .semWait →
    ∃ es : List (HostEv F Env), (∀ e ∈ es, e.alone = true) ∧ (run (step float narrow ntp) s es).sent = v

theorem Inv.obeys {s : Driving F T} (h : s.Inv) : s.Obeys float narrow ntp s.task.chassis.velocity := by
  have hnow : s.sent = s.task.chassis.velocity ∨ s.task.chassis.bNewSpeedCmd = true ∨
      (s.task.pc = .ret ∧ s.task.chassis.currentCmd = 1) ∨ s.task.pc = .sendSpeed := by
    by_cases heq : s.task.chassis.velocity = s.sent
    · exact Or.inl heq.symm
    rcases h.pending.unread heq with hset | hway
    · cases h.idle.symm.trans hset
    · exact Or.inr hway
  refine ⟨fun _ => hnow, ?_⟩
  intro hf hpc
  rcases hnow with hsent | hb | ⟨hret, -⟩ | hsend
  · exact ⟨[], List.forall_mem_nil _, hsent⟩
  · have hsem : 0 < s.task.chassis.cmdSem := by
      refine h.pending.token hb ?_ ?_
      · show s.task.hpc ≠ .post
        rw [h.idle]
        exact Chassis.Hpc.noConfusion
      · rintro ⟨-, he | he⟩
        · cases hpc.symm.trans he
        · cases hpc.symm.trans he
    obtain ⟨t, htpc, htf, htv, hrun⟩ := run_take float narrow ntp hf hpc hsem hb
    refine ⟨List.replicate 4 (.chassis .task rfl) ++ [.load, .load, .load, .chassis .task rfl], ?_, ?_⟩
    · simp [HostEv.alone, isTask]
    · have h0 : (s.withTask t).loads = 0 := h.loads (by rw [hpc]; exact Chassis.Pc.noConfusion)
      rw [run_append, hrun, run_send float narrow ntp (s := s.withTask t) ⟨htpc, htf⟩ h0]
      exact htv
  · cases hpc.symm.trans hret
  · cases hpc.symm.trans hsend

theorem inv_powerUp [Zero F] (inbuf : Nat → UInt8) (destport protocol : Nat) (retVal : Nat → Int)
    (retTyp : Nat → MotorDriverCmdType) (encoderLines : Int) (sntp : T) :
    (powerUp inbuf destport protocol retVal retTyp encoderLines sntp : Driving F T).Inv :=
  ⟨rfl, Task.pending_powerUp protocol retVal retTyp encoderLines, by rintro ⟨⟩, fun _ => rfl⟩

theorem commanded_velocity [Zero F] (inbuf : Nat → UInt8) (destport protocol : Nat) (retVal : Nat → Int)
    (retTyp : Nat → MotorDriverCmdType) (encoderLines : Int) (sntp : T) (es : List (HostEv F Env)) :
    (run (step float narrow ntp) (powerUp inbuf destport protocol retVal retTyp encoderLines sntp) es).Obeys
      float narrow ntp (lastCommanded narrow es) := by
  have hstart := inv_powerUp (F := F) inbuf destport protocol retVal retTyp encoderLines sntp
  have hrun := inv_run_all (I := Inv) (fun _ e h => inv_step float narrow ntp h e) es _ hstart
  have hobeys := hrun.obeys float narrow ntp
  have hlast : (run (step float narrow ntp) (powerUp inbuf destport protocol retVal retTyp encoderLines sntp)
      es).task.fault = false → _ = lastCommanded narrow es := velocity_run float narrow ntp es hstart
  refine ⟨?_, ?_⟩
  · intro hf
    rw [← hlast hf]
    exact hobeys.now hf
  · intro hf hpc
    rw [← hlast hf]
    exact hobeys.later hf hpc

end Steps

end Driving

end SeerDIOBoard.Dispatch
