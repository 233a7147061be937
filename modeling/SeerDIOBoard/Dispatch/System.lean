/-
  SeerDIOBoard.Dispatch.System — the dispatcher and the chassis task on one board.

  `Dispatch` knows datagrams and runs alone; `Chassis.Task` has the chassis task and the
  odometry timer, and takes what the dispatcher does to the chassis device for events of
  its own. Here both run on the same devices: the dispatcher handles a datagram at a time,
  since it runs at the higher priority, and anything the chassis task does may come in
  between.

  `system_refines`: a run of the board is a run of the chassis task's model, whatever the
  datagrams are; `events` says what a datagram is there.
-/

import SeerDIOBoard.Chassis.TaskProofs
import SeerDIOBoard.Dispatch.Wire

namespace SeerDIOBoard.Dispatch

open Lib.Bytes Lib.Machine
open SeerDIOBoard.Can SeerDIOBoard.Chassis SeerDIOBoard.Mileage

variable {F T Env : Type}

/-! ## The board -/

/-- The dispatcher's own data, and what it shares with the chassis task. -/
structure System (F T : Type) where
  inbuf : Nat → UInt8
  destport : Nat
  sntp : T
  task : Chassis.Task F

/-- As the dispatcher sees it. -/
def System.board (s : System F T) : Board F T :=
  { inbuf := s.inbuf, destport := s.destport, devices := s.task.devices, sntp := s.sntp, fault := s.task.fault }

/-- The events that are not the dispatcher's. -/
def ownEvent : Ev F → Bool
  | .task | .tick | .opened _ | .read _ => true
  | .store _ _ _ | .setFlag | .post | .demand _ | .param _ => false

inductive SystemEv (F Env : Type) where
  | datagram (d : Datagram Env)
  | chassis (e : Ev F) (h : ownEvent e = true)

section Loop

variable {D : Type} (pb : Nanopb D) (narrow : D → F) (ntp : Sntp T Env)

/-- What a call of a handler is for the chassis task. -/
def eventsOf (payload : List UInt8) : Handler → List (Ev F)
  | .chassisCommand =>
    let v := (pb.navSpeed payload).2
    [.store (narrow v.x) (narrow v.y) (narrow v.rotate), .setFlag, .post]
  | .configChassisType => [.demand (accepted (pb.chassisDemandConfig payload))]
  | .initMileageParamCommand => [.param (accepted (pb.chassisConfig payload))]
  | .gyroCmd | .nullConfigCmd | .timeSyncQuery => []

def events (s : Board F T) (d : Datagram Env) : List (Ev F) :=
  match invocation s d with
  | none => []
  | some v => eventsOf pb narrow (payload (recvfrom s.inbuf d.bytes) v.len) v.handler

/-- The brand of a 0xA004 message, which the chassis task's model keeps a record of. -/
def brandsIn : Ev F → List Nat
  | .demand pbMsg => (acts pbMsg).toList.map fun m => brandArg m.driverBrand
  | _ => []

namespace System

def step (s : System F T) : SystemEv F Env → System F T
  | .datagram d =>
    let b := turn pb narrow ntp s.board d
    { inbuf := b.inbuf
      destport := b.destport
      sntp := b.sntp
      task :=
        { s.task with
          devices := b.devices
          fault := b.fault
          brands := s.task.brands ++ (events pb narrow s.board d).flatMap brandsIn } }
  | .chassis e _ => { s with task := s.task.step e }

/-- An event of the board as events of the chassis task's model. -/
def expand (s : System F T) : SystemEv F Env → List (Ev F)
  | .datagram d => events pb narrow s.board d
  | .chassis e _ => [e]

end System

/-! ## One event -/

/-- The three steps of a speed command, with nothing in between. -/
theorem run_speed {s : Chassis.Task F} (hf : s.fault = false) (h : s.hpc = .idle) (x y w : F) :
    run Task.step s [.store x y w, .setFlag, .post] =
      s.setChassis ({ s.chassis with oriGlobalX := x, oriGlobalY := y, oriGlobalW := w } : CChassisDevice F).newSpeedCmd := by
  obtain ⟨devices, initCount, pc, hpc, fault, took, lastRead, round, brands⟩ := s
  obtain rfl : hpc = .idle := h
  obtain rfl : fault = false := hf
  rfl

/-- A datagram that leaves the devices alone. -/
theorem task_same {s : System F T} {d : Datagram Env} (hdev : (turn pb narrow ntp s.board d).devices = s.task.devices)
    (hfault : (turn pb narrow ntp s.board d).fault = s.task.fault) (he : events pb narrow s.board d = []) :
    (s.step pb narrow ntp (.datagram d)).task = run Task.step s.task (events pb narrow s.board d) := by
  rw [System.step, he]
  dsimp only
  rw [hdev, hfault, List.flatMap_nil, List.append_nil]
  rfl

theorem task_datagram {s : System F T} (h : s.task.hpc = .idle) (d : Datagram Env) :
    (s.step pb narrow ntp (.datagram d)).task = run Task.step s.task (events pb narrow s.board d) := by
  by_cases hf : s.task.fault = true
  · have hturn := turn_fault (s := s.board) pb narrow ntp d hf
    refine task_same pb narrow ntp (by rw [hturn]; rfl) (by rw [hturn]; rfl) ?_
    rw [events, invocation, if_pos (show s.board.fault = true from hf)]
  have hf' : s.task.fault = false := Bool.eq_false_of_not_eq_true hf
  cases hinv : invocation s.board d with
  | none =>
    have hturn := turn_unhandled pb narrow ntp (show s.board.fault = false from hf') hinv
    exact task_same pb narrow ntp (by rw [hturn]; rfl) (by rw [hturn]; rfl) (by rw [events, hinv])
  | some v =>
    have hturn := turn_invoked pb narrow ntp hinv
    obtain ⟨ct, k, len⟩ := v
    have hev : events pb narrow s.board d = eventsOf pb narrow (payload (recvfrom s.board.inbuf d.bytes) len) k := by
      rw [events, hinv]
    dsimp only at hturn
    generalize payload (recvfrom s.board.inbuf d.bytes) len = body at hturn hev
    cases k with
    | gyroCmd =>
      exact task_same pb narrow ntp (by rw [hturn]; rfl) (by rw [hturn]; rfl) hev
    | nullConfigCmd =>
      exact task_same pb narrow ntp (by rw [hturn]; rfl) (by rw [hturn]; rfl) hev
    | timeSyncQuery =>
      exact task_same pb narrow ntp (by rw [hturn]; rfl) (by rw [hturn]; rfl) hev
    | chassisCommand =>
      rw [System.step, hturn, hev, eventsOf, run_speed hf' h]
      simp only [List.flatMap_cons, List.flatMap_nil, brandsIn, List.append_nil]
      rfl
    | configChassisType =>
      have hstep : s.task.step (.demand (accepted (pb.chassisDemandConfig body))) =
          s.task.demandStep (accepted (pb.chassisDemandConfig body)) := by rw [Task.step, if_neg hf]
      rw [System.step, hturn, hev, eventsOf, run_cons, run_nil, hstep, Task.demandStep, if_pos h]
      simp only [List.flatMap_cons, List.flatMap_nil, brandsIn, List.append_nil]
      rfl
    | initMileageParamCommand =>
      have hstep : s.task.step (.param (accepted (pb.chassisConfig body))) =
          s.task.paramStep (accepted (pb.chassisConfig body)) := by rw [Task.step, if_neg hf]
      rw [System.step, hturn, hev, eventsOf, run_cons, run_nil, hstep, Task.paramStep, if_pos h]
      simp only [List.flatMap_cons, List.flatMap_nil, brandsIn, List.append_nil, handle]
      rw [show s.board.devices = s.task.devices from rfl]
      cases initializeParam s.task.devices (accepted (pb.chassisConfig body)) with
      | none => rfl
      | some r => rfl

theorem hpc_own {s : Chassis.Task F} {e : Ev F} (h : ownEvent e = true) : (s.step e).hpc = s.hpc := by
  unfold Task.step
  split
  · rfl
  cases e with
  | store x y w => cases h
  | setFlag => cases h
  | post => cases h
  | demand pbMsg => cases h
  | param pbMsg => cases h
  | tick =>
    dsimp only [Task.tickStep]
    split
    · split <;> rfl
    · rfl
  | task =>
    dsimp only
    cases s.pc with
    | waitStart => simp only [Task.taskStep]; split <;> rfl
    | waitInited => simp only [Task.taskStep]; split <;> rfl
    | initMsg => simp only [Task.taskStep]; split <;> rfl
    | semWait => simp only [Task.taskStep]; split <;> rfl
    | sendSpeed => simp only [Task.taskStep, Task.encodes]; split <;> rfl
    | sendQuery => simp only [Task.taskStep, Task.encodes]; split <;> rfl
    | _ => rfl
  | opened ok =>
    dsimp only
    split <;> rfl
  | read r =>
    dsimp only
    split
    · cases r with
      | frame msg => simp only [Task.readStep]; split <;> rfl
      | err status hs => simp only [Task.readStep]; split <;> rfl
    · rfl

/-! ## Runs -/

theorem idle_step {s : System F T} (h : s.task.hpc = .idle) (e : SystemEv F Env) :
    (s.step pb narrow ntp e).task.hpc = .idle := by
  cases e with
  | datagram d => exact h
  | chassis e he => exact (hpc_own he).trans h

theorem task_step {s : System F T} (h : s.task.hpc = .idle) (e : SystemEv F Env) :
    (s.step pb narrow ntp e).task = run Task.step s.task (s.expand pb narrow e) := by
  cases e with
  | datagram d => exact task_datagram pb narrow ntp h d
  | chassis e he => rfl

/-- The board when the power comes on. -/
def System.powerUp [Zero F] (inbuf : Nat → UInt8) (destport protocol : Nat) (retVal : Nat → Int)
    (retTyp : Nat → MotorDriverCmdType) (encoderLines : Int) (sntp : T) : System F T where
  inbuf := inbuf
  destport := destport
  sntp := sntp
  task := Task.powerUp protocol retVal retTyp encoderLines

theorem system_refines [Zero F] (inbuf : Nat → UInt8) (destport protocol : Nat) (retVal : Nat → Int)
    (retTyp : Nat → MotorDriverCmdType) (encoderLines : Int) (sntp : T) (es : List (SystemEv F Env)) :
    (run (System.step pb narrow ntp) (System.powerUp inbuf destport protocol retVal retTyp encoderLines sntp) es).task =
      run Task.step (Task.powerUp protocol retVal retTyp encoderLines)
        (expansion (System.step pb narrow ntp) (System.expand pb narrow)
          (System.powerUp inbuf destport protocol retVal retTyp encoderLines sntp) es) :=
  run_expansion (I := fun s : System F T => s.task.hpc = .idle) System.task (fun _ e h => idle_step pb narrow ntp h e)
    (fun _ e h => task_step pb narrow ntp h e) es _ rfl

end Loop

end SeerDIOBoard.Dispatch
