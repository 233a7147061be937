/-
  SeerDIOBoard.Dispatch.Calibration — from the config port to the gyro's UART
  (src/task_config.cxx, src/Gyro.cxx).

  The config task takes a datagram when it is done with the last one. Where the datagram
  makes `doConfig` call `doCalibration` (Dispatch/ConfigPort), the task is in that until the
  set-zero command is out and `gyro_mut` released (Gyro/Sharing); the other tasks go on
  meanwhile.

  - `calibrations_written`: in every run, the UART has been sent its init command and then one
    set-zero command for each datagram that calls for one while the gyro is open, the one in
    hand apart. Nothing else is written, and before it is open no set-zero command.
-/

import SeerDIOBoard.Dispatch.ConfigPort
import SeerDIOBoard.Gyro.Sharing

namespace SeerDIOBoard.Dispatch.Calibration

open Lib.Machine
open SeerDIOBoard.Dispatch.ConfigPort (Firmware ConfigTask Answer serve)
open SeerDIOBoard.Gyro.Receiver (CGyroDevice)
open SeerDIOBoard.Gyro.Sharing (Act Tasks)

structure St where
  task : ConfigTask
  tasks : Tasks

inductive Ev where
  /-- A datagram is there for the config task. -/
  | datagram (d : Datagram Unit)
  | act (a : Act)

namespace St

def start (gyroMut : Bool) (usartFd : Int) (device : CGyroDevice) : St where
  task := ConfigPort.start
  tasks := .start gyroMut usartFd device

/-- What the config task makes of a datagram that it takes now. -/
def served (fw : Firmware) (s : St) (d : Datagram Unit) : ConfigTask × Answer :=
  serve fw s.task { d with env := ⟨s.tasks.bInited⟩ }

def step (fw : Firmware) (s : St) : Ev → St
  | .datagram d =>
    if s.tasks.config = .idle then
      { task := (s.served fw d).1
        tasks := if (s.served fw d).2.calibrated = true then s.tasks.configStep else s.tasks }
    else s
  -- in front of `recvfrom` the config task has nothing else to do
  | .act a => if a.who = .config ∧ s.tasks.config = .idle then s else { s with tasks := s.tasks.step a }

/-- The datagram calls for a calibration. -/
def calls (fw : Firmware) (s : St) : Ev → Nat
  | .datagram d => if s.tasks.config = .idle ∧ (s.served fw d).2.calibrated = true then 1 else 0
  | .act _ => 0

variable {fw : Firmware}

/-- `doConfig` asks `isOpen`. -/
theorem open_of_calibrated {s : St} {d : Datagram Unit} (h : (s.served fw d).2.calibrated = true) :
    s.tasks.bInited = true := by
  by_contra hclosed
  have hfalse : s.tasks.bInited = false := Bool.eq_false_of_not_eq_true hclosed
  unfold served serve ConfigPort.doConfig at h
  rw [hfalse] at h
  dsimp only at h
  split at h
  · cases h
  · split at h
    · rw [if_neg Bool.false_ne_true] at h
      simp at h
    · split at h
      · cases h
      · split at h
        · cases h
        · split at h
          · cases h
          · cases h

theorem sound_step (s : St) (e : Ev) (h : s.tasks.Sound) : (s.step fw e).tasks.Sound := by
  cases e with
  | datagram d =>
    rw [step]
    split
    · dsimp only
      split
      · exact Tasks.sound_config h
      · exact h
    · exact h
  | act a =>
    rw [step]
    split
    · exact h
    · exact Tasks.sound_step s.tasks a h

theorem zeros_step (s : St) (e : Ev) (h : s.tasks.Sound) :
    (s.step fw e).tasks.zeros + (s.step fw e).tasks.inHand = s.tasks.zeros + s.tasks.inHand + s.calls fw e := by
  cases e with
  | datagram d =>
    rw [step, calls]
    by_cases hidle : s.tasks.config = .idle
    · simp only [hidle, true_and, if_true]
      by_cases hcal : (s.served fw d).2.calibrated = true
      · rw [if_pos hcal, if_pos hcal, Tasks.zeros_configStep h]
        simp only [hidle, open_of_calibrated hcal, and_self, if_true]
      · rw [if_neg hcal, if_neg hcal]
        rfl
    · simp only [hidle, false_and, if_false]
      rfl
  | act a =>
    rw [step, calls]
    split
    · rfl
    case isFalse hbusy =>
      have hstep := Tasks.zeros_step s.tasks a h
      rw [Tasks.asked, if_neg fun h => hbusy ⟨h.1, h.2.1⟩] at hstep
      exact hstep

theorem calibrations_written (fw : Firmware) (gyroMut : Bool) (usartFd : Int) (device : CGyroDevice) (es : List Ev) :
    (run (step fw) (start gyroMut usartFd device) es).tasks.Written
      (total (step fw) (calls fw) (start gyroMut usartFd device) es) := by
  have hstart : (start gyroMut usartFd device).tasks.Sound := Tasks.sound_start gyroMut usartFd device
  refine Tasks.written_of_sound (inv_run_all (I := fun s : St => s.tasks.Sound) sound_step es _ hstart) ?_
  have htotal := total_of_step (f := calls fw) (g := fun s : St => s.tasks.zeros + s.tasks.inHand) sound_step zeros_step
    es _ hstart
  exact htotal.trans (Nat.zero_add _)

end St

end SeerDIOBoard.Dispatch.Calibration
