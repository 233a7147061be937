/-
  SeerDIOBoard.Dispatch.Lengths — which bytes the handlers of the command dispatcher are
  given.

  The loop does not look at `nbytes` before it takes the command out of the buffer, and
  the buffer keeps the word of the last datagram that no handler took. So the bytes of a
  datagram shorter than four are completed by old ones, and the length passed on is
  `(uint16_t)(nbytes - 4)`, which has wrapped then. A gyro command has its four bytes read
  whatever its length is.

  `lengths_iff`: over every run, a handler gets the datagram's own command and payload and
  reads no further, exactly when no short datagram is completed to a command and no gyro
  command has less than four bytes of payload.
-/

import SeerDIOBoard.Dispatch.SpeedCommand

namespace SeerDIOBoard.Dispatch

open Lib.Machine
open SeerDIOBoard.Can SeerDIOBoard.Chassis SeerDIOBoard.Mileage

variable {F D T Env : Type}

/-! ## The call of a handler -/

/-- A call of a handler: the command it was found for, the handler and `len`. -/
structure Invocation where
  ct : Nat
  handler : Handler
  len : Nat
  deriving DecidableEq, Repr

/-- The call a datagram leads to. -/
def invocation (s : Board F T) (d : Datagram Env) : Option Invocation :=
  if s.fault = true then none
  else
    let ct := word (recvfrom s.inbuf d.bytes)
    (findHandler ct).map fun h => { ct := ct, handler := h, len := lenArg d.bytes.length }

/-- How many bytes of the payload a handler may read, given `len`: `pb_decode` keeps to
    `len`, `gyroCmdDispatcher` reads a `uint32_t`. -/
def parses : Handler → Nat → Nat
  | .gyroCmd, _ => 4
  | .chassisCommand, len | .configChassisType, len | .initMileageParamCommand, len => len
  | .nullConfigCmd, _ | .timeSyncQuery, _ => 0

section Turn

variable (pb : Nanopb D) (narrow : D → F) (ntp : Sntp T Env)

def turn (s : Board F T) (d : Datagram Env) : Board F T := (dispatch pb narrow ntp s d).1

/-- What a turn leaves is what the called handler leaves, with the word cleared. -/
theorem turn_invoked {s : Board F T} {d : Datagram Env} {v : Invocation} (h : invocation s d = some v) :
    turn pb narrow ntp s d =
      match handle pb narrow ntp { s with inbuf := recvfrom s.inbuf d.bytes } d.env
          (payload (recvfrom s.inbuf d.bytes) v.len) v.handler with
      | none => { s with inbuf := recvfrom s.inbuf d.bytes, fault := true }
      | some (_, s') => { s' with inbuf := clearWord s'.inbuf } := by
  unfold invocation at h
  split at h
  · cases h
  case isFalse hf =>
    obtain ⟨k, hk, rfl⟩ := Option.map_eq_some_iff.mp h
    unfold turn dispatch
    rw [if_neg hf]
    simp only [hk]
    generalize handle pb narrow ntp { s with inbuf := recvfrom s.inbuf d.bytes } d.env
      (payload (recvfrom s.inbuf d.bytes) (lenArg d.bytes.length)) k = r
    rcases r with _ | ⟨ret, s'⟩
    · rfl
    · rfl

theorem turn_fault {s : Board F T} (d : Datagram Env) (hf : s.fault = true) : turn pb narrow ntp s d = s := by
  unfold turn dispatch
  rw [if_pos hf]

/-- A datagram no handler takes. -/
theorem turn_unhandled {s : Board F T} {d : Datagram Env} (hf : s.fault = false) (h : invocation s d = none) :
    turn pb narrow ntp s d =
      { s with
        inbuf := recvfrom s.inbuf d.bytes
        sntp := if 123 = s.destport then
            ntp.ntpCalcHandler s.sntp d.env (fun i => recvfrom s.inbuf d.bytes (4 + i)) (lenArg d.bytes.length)
          else s.sntp } := by
  have hf' : ¬ s.fault = true := by rw [hf]; exact Bool.false_ne_true
  unfold invocation at h
  rw [if_neg hf', Option.map_eq_none_iff] at h
  unfold turn dispatch
  rw [if_neg hf']
  simp only [h]

end Turn

/-! ## A datagram and its call -/

/-- A handler is called only with the datagram's own command and payload, and reads
    nothing behind it. -/
def InOwnBytes (s : Board F T) (d : Datagram Env) : Prop :=
  ∀ v, invocation s d = some v →
    4 ≤ d.bytes.length ∧ v.ct = word (fun i => d.bytes.getD i 0) ∧ v.len = d.bytes.length - 4 ∧
      4 + parses v.handler v.len ≤ d.bytes.length

/-- A datagram of less than four bytes is not completed to a command by what the buffer
    holds, and a gyro command comes with its four bytes. -/
def NoStaleCommand (s : Board F T) (d : Datagram Env) : Prop :=
  s.fault = false →
    (d.bytes.length < 4 → findHandler (word (recvfrom s.inbuf d.bytes)) = none) ∧
      (findHandler (word (recvfrom s.inbuf d.bytes)) = some .gyroCmd → 8 ≤ d.bytes.length)

theorem parses_le {h : Handler} (hne : h ≠ .gyroCmd) (len : Nat) : parses h len ≤ len := by
  cases h with
  | gyroCmd => exact absurd rfl hne
  | nullConfigCmd => exact Nat.zero_le _
  | timeSyncQuery => exact Nat.zero_le _
  | _ => exact Nat.le_refl _

theorem inOwnBytes_iff (s : Board F T) (d : Datagram Env) : InOwnBytes s d ↔ NoStaleCommand s d := by
  unfold InOwnBytes NoStaleCommand invocation
  by_cases hf : s.fault = true
  · rw [if_pos hf, hf]
    simp
  rw [if_neg hf]
  have hf' : s.fault = false := Bool.eq_false_of_not_eq_true hf
  dsimp only
  cases hfind : findHandler (word (recvfrom s.inbuf d.bytes)) with
  | none => simp
  | some h =>
    simp only [Option.map_some, Option.some.injEq, forall_eq', hf', true_imp_iff]
    constructor
    · intro ⟨h4, _, _, hread⟩
      refine ⟨fun hlt => by omega, ?_⟩
      intro hg
      rw [hg] at hread
      exact hread
    · intro ⟨hshort, hgyro⟩
      have h4 : 4 ≤ d.bytes.length := by
        by_contra hlt
        cases hshort (by omega)
      have hlen := lenArg_of_le h4 d.bytes_le
      refine ⟨h4, word_recvfrom _ h4, hlen, ?_⟩
      by_cases hg : h = .gyroCmd
      · have h8 := hgyro hg
        rw [hg]
        exact h8
      · have hle := parses_le hg (lenArg d.bytes.length)
        omega

/-! ## Runs -/

theorem lengths_iff [Zero F] (pb : Nanopb D) (narrow : D → F) (ntp : Sntp T Env) (inbuf : Nat → UInt8)
    (destport protocol : Nat) (retVal : Nat → Int) (retTyp : Nat → MotorDriverCmdType) (encoderLines : Int)
    (sntp : T) (ds : List (Datagram Env)) :
    Along (turn pb narrow ntp) InOwnBytes
        (powerUp inbuf destport protocol retVal retTyp encoderLines sntp).board ds ↔
      Along (turn pb narrow ntp) NoStaleCommand
        (powerUp inbuf destport protocol retVal retTyp encoderLines sntp).board ds :=
  along_iff_of_inv (I := fun _ => True) (fun _ _ _ _ => trivial) (fun s d _ => inOwnBytes_iff s d) ds _ trivial

/-! ## A word left in the buffer -/

def datagramOf (bytes : List UInt8) (h : bytes.length ≤ 1024) : Datagram Unit := { bytes := bytes, bytes_le := h, env := () }

/-- 0xA000 is nobody's command and stays in the buffer; one byte 04 makes it 0xA004. -/
def leftWord : List (Datagram Unit) :=
  [datagramOf [0x00, 0xa0, 0, 0] (by decide), datagramOf [0x04] (by decide)]

theorem short_datagram_invokes :
    ¬ Along (turn (nanopb fun _ => 0) narrowed ⟨fun t _ => (0, t), fun t _ _ _ => t⟩) InOwnBytes
      (powerUp (fun _ => 0) 0 0 (fun _ => 0) (fun _ => .null) 0 () : Watched Lib.Ieee.Val Unit).board leftWord := by
  intro h
  have hcall := h.2.1 { ct := 0xa004, handler := .configChassisType, len := 65533 } rfl
  exact absurd hcall.1 (by decide)

end SeerDIOBoard.Dispatch
