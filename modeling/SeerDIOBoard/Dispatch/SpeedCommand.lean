/-
  SeerDIOBoard.Dispatch.SpeedCommand — the commanded velocity over runs of datagrams.

  It should be that of the last chassis-speed datagram (0x1034) that decoded, and a
  datagram that is not one should neither change it nor request a speed command
  (`Tracks`). `chassisCmdHandler` prints a message when `pb_decode` fails and goes on with
  what it has stored by then; the handlers beside it return -1. And a datagram of less
  than four bytes is taken for the command the buffer still holds.

  `tracks_iff`: the velocity is right over a run exactly when every datagram that is
  handled as 0x1034 is one, and decodes (`Decodes`).
-/

import Mathlib.Algebra.Order.Field.Rat
import Mathlib.Data.List.GetD
import SeerDIOBoard.Lib.Machine
import SeerDIOBoard.Dispatch.Nanopb

namespace SeerDIOBoard.Dispatch

open Lib.Ieee (Val)
open Lib.Machine
open SeerDIOBoard.Can SeerDIOBoard.Chassis SeerDIOBoard.Mileage

variable {F D T Env : Type}

/-! ## What should happen -/

/-- The board, and the velocity of the last speed command that was accepted. -/
structure Watched (F T : Type) where
  board : Board F T
  wanted : F × F × F

section Watched

variable (pb : Nanopb D) (narrow : D → F) (ntp : Sntp T Env)

/-- A chassis-speed datagram: its own first four bytes are the command. -/
def IsSpeed (bytes : List UInt8) : Prop := 4 ≤ bytes.length ∧ word (fun i => bytes.getD i 0) = 0x1034

/-- A chassis-speed datagram whose payload `pb_decode` accepts. -/
def IsAccepted (bytes : List UInt8) : Prop := IsSpeed bytes ∧ (pb.navSpeed (bytes.drop 4)).1 = true

instance (bytes : List UInt8) : Decidable (IsSpeed bytes) := inferInstanceAs (Decidable (_ ∧ _))

instance (bytes : List UInt8) : Decidable (IsAccepted pb bytes) := inferInstanceAs (Decidable (_ ∧ _))

def velocityOf (msg : NavSpeed D) : F × F × F := (narrow msg.x, narrow msg.y, narrow msg.rotate)

def watch (s : Watched F T) (d : Datagram Env) : Watched F T :=
  if s.board.fault = true then s
  else
    { board := (dispatch pb narrow ntp s.board d).1
      wanted := if IsAccepted pb d.bytes then velocityOf narrow (pb.navSpeed (d.bytes.drop 4)).2 else s.wanted }

/-- Nobody commands the chassis: the velocity is as it was, and no speed command has been
    requested. -/
structure NoCommand (c c' : CChassisDevice F) : Prop where
  velocity : c'.velocity = c.velocity
  cmdSem : c'.cmdSem = c.cmdSem
  bNewSpeedCmd : c'.bNewSpeedCmd = c.bNewSpeedCmd

/-- The velocity after the datagram is that of the last accepted speed command, and only
    an accepted speed command has commanded the chassis. -/
def Tracks (s : Watched F T) (d : Datagram Env) : Prop :=
  (watch pb narrow ntp s d).board.devices.chassis.velocity = (watch pb narrow ntp s d).wanted ∧
    (¬ IsAccepted pb d.bytes → NoCommand s.board.devices.chassis (watch pb narrow ntp s d).board.devices.chassis)

/-- When the word in the buffer is the chassis-speed command, the datagram is a
    chassis-speed datagram and decodes. -/
def Decodes (s : Watched F T) (d : Datagram Env) : Prop :=
  s.board.fault = false → word (recvfrom s.board.inbuf d.bytes) = 0x1034 → IsAccepted pb d.bytes

end Watched

/-! ## The buffer -/

theorem recvfrom_of_lt (inbuf : Nat → UInt8) {bytes : List UInt8} {i : Nat} (h : i < bytes.length) :
    recvfrom inbuf bytes i = bytes.getD i 0 := if_pos h

theorem word_recvfrom (inbuf : Nat → UInt8) {bytes : List UInt8} (h : 4 ≤ bytes.length) :
    word (recvfrom inbuf bytes) = word fun i => bytes.getD i 0 := by
  unfold word
  rw [recvfrom_of_lt inbuf (by omega), recvfrom_of_lt inbuf (by omega), recvfrom_of_lt inbuf (by omega),
    recvfrom_of_lt inbuf (by omega)]

theorem lenArg_of_le {n : Nat} (h : 4 ≤ n) (h' : n ≤ 1024) : lenArg n = n - 4 := by
  unfold lenArg
  omega

/-- With at least four bytes the handler gets the rest of the datagram and nothing else. -/
theorem payload_recvfrom (inbuf : Nat → UInt8) {bytes : List UInt8} (h : 4 ≤ bytes.length)
    (h' : bytes.length ≤ 1024) : payload (recvfrom inbuf bytes) (lenArg bytes.length) = bytes.drop 4 := by
  rw [lenArg_of_le h h']
  unfold payload
  apply List.ext_getElem
  · simp
  · intro i h1 h2
    simp only [List.length_map, List.length_range] at h1
    rw [List.getElem_map, List.getElem_range, recvfrom_of_lt inbuf (by omega), List.getElem_drop,
      List.getD_eq_getElem _ _ (by omega)]

/-! ## One datagram -/

theorem findHandler_chassis (ct : Nat) : findHandler ct = some .chassisCommand ↔ ct = 0x1034 := by
  constructor
  · intro h
    obtain ⟨row, hfind, hrow⟩ := Option.map_eq_some_iff.mp h
    have hct : row.1 = ct := by simpa using List.find?_some hfind
    have hall : ∀ row ∈ commandHandlerTab, row.2 = .chassisCommand → row.1 = 0x1034 := by decide
    rw [← hct]
    exact hall row (List.mem_of_find?_eq_some hfind) hrow
  · intro h
    rw [h]
    rfl

section Step

variable (pb : Nanopb D) (narrow : D → F) (ntp : Sntp T Env)

/-- The other handlers do not command the chassis. -/
theorem handle_other {s s' : Board F T} {env : Env} {bytes : List UInt8} {h : Handler} {ret : Int}
    (hne : h ≠ .chassisCommand) (hh : handle pb narrow ntp s env bytes h = some (ret, s')) :
    NoCommand s.devices.chassis s'.devices.chassis := by
  cases h with
  | chassisCommand => exact absurd rfl hne
  | gyroCmd =>
    obtain ⟨_, rfl⟩ : _ ∧ s = s' := by simpa [handle] using hh
    exact ⟨rfl, rfl, rfl⟩
  | nullConfigCmd =>
    obtain ⟨_, rfl⟩ : _ ∧ s = s' := by simpa [handle] using hh
    exact ⟨rfl, rfl, rfl⟩
  | timeSyncQuery =>
    obtain ⟨_, rfl⟩ : _ ∧ { s with sntp := (ntp.ntpQueryHandler s.sntp env).2 } = s' := by simpa [handle] using hh
    exact ⟨rfl, rfl, rfl⟩
  | configChassisType =>
    obtain ⟨_, rfl⟩ : _ ∧ { s with devices := (configChassisTypeFunc s.devices
        (accepted (pb.chassisDemandConfig bytes))).2 } = s' := by simpa [handle] using hh
    obtain ⟨p, d, n, hc⟩ := configChassisTypeFunc_frame s.devices (accepted (pb.chassisDemandConfig bytes))
    dsimp only
    rw [hc]
    exact ⟨rfl, rfl, rfl⟩
  | initMileageParamCommand =>
    obtain ⟨r, hr, hs'⟩ := Option.map_eq_some_iff.mp hh
    obtain ⟨_, rfl⟩ : r.1 = ret ∧ { s with devices := r.2 } = s' := by simpa using hs'
    have hsame : SameButIds s.devices r.2 := initializeParam_frame hr
    have hc := hsame.chassis
    dsimp only
    rw [hc]
    exact ⟨rfl, rfl, rfl⟩

theorem dispatch_other {s : Board F T} (d : Datagram Env) (hf : s.fault = false)
    (hw : word (recvfrom s.inbuf d.bytes) ≠ 0x1034) :
    NoCommand s.devices.chassis (dispatch pb narrow ntp s d).1.devices.chassis := by
  have hno : NoCommand s.devices.chassis s.devices.chassis := ⟨rfl, rfl, rfl⟩
  unfold dispatch
  rw [if_neg (by simp [hf])]
  dsimp only
  split
  case h_1 h hfind =>
    split
    · exact hno
    case h_2 ret s' hh =>
      have hne : h ≠ .chassisCommand := by
        intro he
        rw [he] at hfind
        exact hw ((findHandler_chassis _).mp hfind)
      have ho := handle_other pb narrow ntp hne hh
      exact ⟨ho.velocity, ho.cmdSem, ho.bNewSpeedCmd⟩
  · exact hno

/-- A datagram that is handled as 0x1034: the message as far as it was decoded becomes the
    velocity, whatever `pb_decode` answered. -/
theorem dispatch_chassis {s : Board F T} (d : Datagram Env) (hf : s.fault = false)
    (hw : word (recvfrom s.inbuf d.bytes) = 0x1034) :
    (dispatch pb narrow ntp s d).1.devices.chassis.velocity =
        velocityOf narrow (pb.navSpeed (payload (recvfrom s.inbuf d.bytes) (lenArg d.bytes.length))).2 ∧
      (dispatch pb narrow ntp s d).1.devices.chassis.cmdSem = s.devices.chassis.cmdSem + 1 := by
  unfold dispatch
  rw [if_neg (by simp [hf])]
  dsimp only
  rw [hw]
  exact ⟨rfl, rfl⟩

theorem tracks_step (s : Watched F T) (d : Datagram Env)
    (hs : s.board.devices.chassis.velocity = s.wanted) :
    Tracks pb narrow ntp s d ↔ Decodes pb s d := by
  unfold Tracks Decodes
  by_cases hf : s.board.fault = true
  · have hw : watch pb narrow ntp s d = s := if_pos hf
    rw [hw]
    refine ⟨?_, fun _ => ⟨hs, fun _ => ⟨rfl, rfl, rfl⟩⟩⟩
    intro _ h
    rw [hf] at h
    cases h
  have hf' : s.board.fault = false := by simpa using hf
  have hstep : watch pb narrow ntp s d = _ := if_neg hf
  rw [hstep]
  simp only [hf', true_imp_iff]
  by_cases hw : word (recvfrom s.board.inbuf d.bytes) = 0x1034
  · obtain ⟨hvel, hsem⟩ := dispatch_chassis pb narrow ntp d hf' hw
    by_cases hacc : IsAccepted pb d.bytes
    · rw [hvel, payload_recvfrom _ hacc.1.1 d.bytes_le, if_pos hacc]
      exact ⟨fun _ _ => hacc, fun _ => ⟨rfl, fun h => absurd hacc h⟩⟩
    · -- the chassis is commanded without an accepted command
      refine ⟨fun h => absurd (h.2 hacc).cmdSem ?_, fun h => absurd (h hw) hacc⟩
      rw [hsem]
      exact Nat.succ_ne_self _
  · have ho := dispatch_other pb narrow ntp d hf' hw
    have hacc : ¬ IsAccepted pb d.bytes := fun h => hw ((word_recvfrom _ h.1.1).trans h.1.2)
    rw [if_neg hacc]
    exact ⟨fun _ h => absurd h hw, fun _ => ⟨ho.velocity.trans hs, fun _ => ho⟩⟩

end Step

/-! ## Runs -/

/-- The board before the first datagram: a device as constructed, and any memory. -/
def powerUp [Zero F] (inbuf : Nat → UInt8) (destport protocol : Nat) (retVal : Nat → Int)
    (retTyp : Nat → MotorDriverCmdType) (encoderLines : Int) (sntp : T) : Watched F T where
  board := { inbuf, destport, devices := { chassis := .new protocol retVal retTyp, mileage := .new encoderLines }, sntp,
             fault := false }
  wanted := (0, 0, 0)

theorem tracks_iff [Zero F] (pb : Nanopb D) (narrow : D → F) (ntp : Sntp T Env) (inbuf : Nat → UInt8)
    (destport protocol : Nat) (retVal : Nat → Int) (retTyp : Nat → MotorDriverCmdType) (encoderLines : Int)
    (sntp : T) (ds : List (Datagram Env)) :
    Along (watch pb narrow ntp) (Tracks pb narrow ntp)
        (powerUp inbuf destport protocol retVal retTyp encoderLines sntp) ds ↔
      Along (watch pb narrow ntp) (Decodes pb)
        (powerUp inbuf destport protocol retVal retTyp encoderLines sntp) ds := by
  refine along_iff_of_inv (I := fun s : Watched F T => s.board.devices.chassis.velocity = s.wanted) ?_ ?_ ds _ rfl
  · intro s d _ h
    exact h.1
  · intro s d hs
    exact tracks_step pb narrow ntp s d hs

/-! ## A payload cut short -/

/-- x = 1.0, and the tag of y without its value: x is stored by the time `pb_decode` fails. -/
def truncated : List UInt8 := [0x09, 0, 0, 0, 0, 0, 0, 0xf0, 0x3f, 0x11]

def truncatedSpeed : Datagram Unit := { bytes := [0x34, 0x10, 0, 0] ++ truncated, bytes_le := by decide, env := () }

theorem truncated_moves :
    ¬ Along (watch (nanopb fun _ => 0) narrowed ⟨fun t _ => (0, t), fun t _ _ _ => t⟩)
      (Tracks (nanopb fun _ => 0) narrowed ⟨fun t _ => (0, t), fun t _ _ _ => t⟩)
      (powerUp (fun _ => 0) 0 0 (fun _ => 0) (fun _ => .null) 0 () : Watched Val Unit) [truncatedSpeed] := by
  intro h
  have hvel : narrowed 0x3ff0000000000000 = 0 := congrArg Prod.fst h.1.1
  exact absurd hvel (by decide +kernel)

end SeerDIOBoard.Dispatch
