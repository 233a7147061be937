/-
  SeerDIOBoard.Dispatch.TimeSync — the time synchronisation (`CSntpSynchr`,
  src/sntpSynchr.cxx and .h) under the command dispatcher.

  A query (0x1013) sets `isWaitingForReply_`, and no further query is sent until
  `ntpCalcHandler` has cleared it. The dispatcher calls that for a datagram without a
  handler when `destport` is 123, the NTP port. But `destport` is a zero of its file that
  nothing assigns: the port a datagram came from is in `client`, and stays there.

  - `endsWait_iff`: an NTP reply ends the waiting exactly when `destport` is 123;
  - `wait_never_ended`: from power-up no reply ever ends it, nor anything after it.
-/

import Mathlib.Algebra.Group.Nat.Defs
import SeerDIOBoard.Lib.Bytes
import SeerDIOBoard.Dispatch.Lengths

namespace SeerDIOBoard.Dispatch

open Lib.Machine Lib.Bytes
open SeerDIOBoard.Can SeerDIOBoard.Chassis SeerDIOBoard.Mileage

/-! ## CSntpSynchr -/

/-- `struct timeval` of the board: both fields have 32 bits. -/
structure Timeval where
  tv_sec : UInt32
  tv_usec : UInt32
  deriving DecidableEq, Repr

/-- The time in nanoseconds. -/
def Timeval.ns (t : Timeval) : Nat := t.tv_sec.toNat * 1000000000 + t.tv_usec.toNat * 1000

theorem Timeval.ns_lt (t : Timeval) : t.ns < 2 ^ 64 := by
  have hsec := t.tv_sec.toNat_lt
  have husec := t.tv_usec.toNat_lt
  unfold Timeval.ns
  omega

/-- What a datagram's calls find outside: the port it came from, the clock, and what
    `socket` answers. -/
structure NtpEnv where
  sinPort : Nat
  now : Timeval
  socket : Int

structure CSntpSynchr where
  startTime_ns : Timeval
  midTime_ns : UInt64
  baseOffset_ns : UInt64
  isWaitingForReply : Bool
  /-- `socket_n` of the file. -/
  socketN : Int

def ntpRequestMsgLen : Nat := 48

def ntpPort : Nat := 123

def m1900To1970 : UInt64 := 2208988800000000000

/-- Half of the time between query and reply, in the 32 bits of `time_t` and `long`. -/
def midTime (start stop : Timeval) : UInt64 :=
  (((stop.tv_sec - start.tv_sec) * 1000000000 + (stop.tv_usec - start.tv_usec) * 1000) >>> 1).toUInt64

def CSntpSynchr.startRecorder (c : CSntpSynchr) (now : Timeval) : CSntpSynchr :=
  if c.isWaitingForReply = true then c else { c with isWaitingForReply := true, startTime_ns := now }

def CSntpSynchr.stopRecorder (c : CSntpSynchr) (now : Timeval) : CSntpSynchr :=
  { c with midTime_ns := midTime c.startTime_ns now, isWaitingForReply := false }

def CSntpSynchr.calcNtpTimeOffset (c : CSntpSynchr) (tInteg tDecimal : UInt64) : UInt64 :=
  (tInteg * 1000000000 + (tDecimal * 1000000000) >>> (32 : UInt64)) - c.midTime_ns

def CSntpSynchr.ntpQueryHandler (c : CSntpSynchr) (env : NtpEnv) : Int × CSntpSynchr :=
  if c.isWaitingForReply = true then (-1, c)
  else
    let c := c.startRecorder env.now
    if c.socketN < 0 then
      let c := { c with socketN := env.socket }
      if c.socketN < 0 then (1, c) else (0, c)
    else (0, c)

/-- The second timestamp, `t_integ2`, is only compared with the first for a message. -/
def CSntpSynchr.ntpCalcHandler (c : CSntpSynchr) (env : NtpEnv) (buff : Nat → UInt8) (len : Nat) : Int × CSntpSynchr :=
  let c := c.stopRecorder env.now
  if len ≠ ntpRequestMsgLen - 4 then (-1, c)
  else
    let tInteg1 := bigEndian64 ((List.range 8).map fun i => buff (ntpRequestMsgLen - 4 - 16 + i))
    let tmpNtpTimeOffset_ns := c.calcNtpTimeOffset (tInteg1 >>> 32) (tInteg1 &&& 0xffffffff)
    (0, { c with baseOffset_ns := tmpNtpTimeOffset_ns - m1900To1970 })

def sntpSynchr : Sntp CSntpSynchr NtpEnv where
  ntpQueryHandler := CSntpSynchr.ntpQueryHandler
  ntpCalcHandler c env buff len := (c.ntpCalcHandler env buff len).2

/-! ## The server's time -/

/-- The timestamp in bytes 32 to 39 of a reply in nanoseconds: seconds, and a fraction of
    a second with 32 bits. -/
def serverTime_ns (bytes : List UInt8) : Nat :=
  let sec := bigEndian ((bytes.drop 32).take 4)
  let frac := bigEndian ((bytes.drop 36).take 4)
  sec * 1000000000 + frac * 1000000000 / 2 ^ 32

theorem toNat_timestamp {hi lo : List UInt8} (hhi : hi.length = 4) (hlo : lo.length = 4) :
    (bigEndian64 (hi ++ lo) >>> 32).toNat = bigEndian hi ∧
      (bigEndian64 (hi ++ lo) &&& 0xffffffff).toNat = bigEndian lo := by
  have hlt := bigEndian_lt lo
  rw [hlo] at hlt
  have hval : (bigEndian64 (hi ++ lo)).toNat = bigEndian hi * 2 ^ 32 + bigEndian lo := by
    rw [toNat_bigEndian64 (by rw [List.length_append, hhi, hlo]), bigEndian_append, hlo]
  constructor
  · rw [UInt64.toNat_shiftRight, hval, Nat.shiftRight_eq_div_pow]
    show (bigEndian hi * 2 ^ 32 + bigEndian lo) / 2 ^ 32 = bigEndian hi
    omega
  · have hmask : (0xffffffff : UInt64).toNat = 2 ^ 32 - 1 := rfl
    rw [UInt64.toNat_and, hval, hmask, Nat.and_two_pow_sub_one_eq_mod]
    omega

/-- The server's time less half of the delay; nothing overflows before the subtraction. -/
theorem calcNtpTimeOffset_eq (c : CSntpSynchr) {hi lo : List UInt8} (hhi : hi.length = 4) (hlo : lo.length = 4) :
    c.calcNtpTimeOffset (bigEndian64 (hi ++ lo) >>> 32) (bigEndian64 (hi ++ lo) &&& 0xffffffff) =
      UInt64.ofNat (bigEndian hi * 1000000000 + bigEndian lo * 1000000000 / 2 ^ 32) - c.midTime_ns := by
  obtain ⟨hsec, hfrac⟩ := toNat_timestamp hhi hlo
  have h1 := bigEndian_lt hi
  have h2 := bigEndian_lt lo
  rw [hhi] at h1
  rw [hlo] at h2
  have hg : (1000000000 : UInt64).toNat = 1000000000 := rfl
  have h32 : (32 : UInt64).toNat % 64 = 32 := rfl
  have hsmall : bigEndian hi * 1000000000 < 2 ^ 64 ∧ bigEndian lo * 1000000000 < 2 ^ 64 := by omega
  unfold CSntpSynchr.calcNtpTimeOffset
  congr 1
  apply UInt64.toNat_inj.mp
  rw [UInt64.toNat_add, UInt64.toNat_mul, hsec, UInt64.toNat_shiftRight, UInt64.toNat_mul, hfrac, hg, h32,
    Nat.shiftRight_eq_div_pow, UInt64.toNat_ofNat', Nat.mod_eq_of_lt hsmall.1, Nat.mod_eq_of_lt hsmall.2]

/-! ## A datagram and the waiting -/

section TimeSync

variable {F D : Type} (pb : Nanopb D) (narrow : D → F)

/-- The waiting is over, the offset is the one of the reply in the datagram, and a query is
    not refused any more. -/
structure EndsWait (s : Board F CSntpSynchr) (d : Datagram NtpEnv) : Prop where
  waiting : (turn pb narrow sntpSynchr s d).sntp.isWaitingForReply = false
  offset : (turn pb narrow sntpSynchr s d).sntp.baseOffset_ns =
    UInt64.ofNat (serverTime_ns d.bytes) - midTime s.sntp.startTime_ns d.env.now - m1900To1970
  asked : ∀ env, ((turn pb narrow sntpSynchr s d).sntp.ntpQueryHandler env).1 ≠ -1

/-- A reply of the NTP server that no handler takes. -/
structure IsNtpReply (d : Datagram NtpEnv) : Prop where
  length : d.bytes.length = ntpRequestMsgLen
  port : d.env.sinPort = ntpPort
  unhandled : findHandler (word fun i => d.bytes.getD i 0) = none

theorem query_refused {c : CSntpSynchr} (h : c.isWaitingForReply = true) (env : NtpEnv) : c.ntpQueryHandler env = (-1, c) :=
  if_pos h

theorem query_sent {c : CSntpSynchr} (h : c.isWaitingForReply = false) (env : NtpEnv) : (c.ntpQueryHandler env).1 ≠ -1 := by
  have h' : ¬ c.isWaitingForReply = true := by rw [h]; exact Bool.false_ne_true
  unfold CSntpSynchr.ntpQueryHandler
  rw [if_neg h']
  dsimp only
  have hfail : (1 : Int) ≠ -1 := by decide
  have hok : (0 : Int) ≠ -1 := by decide
  split
  · split
    · exact hfail
    · exact hok
  · exact hok

/-- No handler touches `destport`, and only the query touches the time synchronisation. -/
theorem handle_sntp {s s' : Board F CSntpSynchr} {env : NtpEnv} {bytes : List UInt8} {h : Handler} {ret : Int}
    (hh : handle pb narrow sntpSynchr s env bytes h = some (ret, s')) :
    s'.destport = s.destport ∧ (s'.sntp = s.sntp ∨ s'.sntp = (s.sntp.ntpQueryHandler env).2) := by
  cases h with
  | initMileageParamCommand =>
    obtain ⟨r, _, hs'⟩ := Option.map_eq_some_iff.mp hh
    cases hs'
    exact ⟨rfl, .inl rfl⟩
  | timeSyncQuery =>
    cases hh
    exact ⟨rfl, .inr rfl⟩
  | _ =>
    cases hh
    exact ⟨rfl, .inl rfl⟩

/-- With another `destport` a turn changes the time synchronisation by a query or not at all. -/
theorem turn_sntp {s : Board F CSntpSynchr} (hp : s.destport ≠ ntpPort) (d : Datagram NtpEnv) :
    (turn pb narrow sntpSynchr s d).destport = s.destport ∧
      ((turn pb narrow sntpSynchr s d).sntp = s.sntp ∨
        (turn pb narrow sntpSynchr s d).sntp = (s.sntp.ntpQueryHandler d.env).2) := by
  by_cases hf : s.fault = true
  · rw [turn_fault pb narrow sntpSynchr d hf]
    exact ⟨rfl, .inl rfl⟩
  rcases hv : invocation s d with _ | v
  · rw [turn_unhandled pb narrow sntpSynchr (Bool.eq_false_of_not_eq_true hf) hv]
    exact ⟨rfl, .inl (if_neg fun h => hp h.symm)⟩
  · rw [turn_invoked pb narrow sntpSynchr hv]
    split
    · exact ⟨rfl, .inl rfl⟩
    case h_2 ret s' hh =>
      obtain ⟨hdest, hsntp⟩ := handle_sntp pb narrow hh
      exact ⟨hdest, hsntp⟩

/-- Then who waits goes on waiting. -/
theorem turn_waiting {s : Board F CSntpSynchr} (hp : s.destport ≠ ntpPort) (hw : s.sntp.isWaitingForReply = true)
    (d : Datagram NtpEnv) : (turn pb narrow sntpSynchr s d).sntp = s.sntp := by
  rcases (turn_sntp pb narrow hp d).2 with h | h
  · exact h
  · rw [h, query_refused hw]

/-- The eight bytes it reads are the seconds and the fraction of the datagram. -/
theorem stamp_recvfrom (inbuf : Nat → UInt8) {bytes : List UInt8} (h : bytes.length = ntpRequestMsgLen) :
    ((List.range 8).map fun i => recvfrom inbuf bytes (4 + (28 + i))) =
      (bytes.drop 32).take 4 ++ (bytes.drop 36).take 4 := by
  have h48 : bytes.length = 48 := h
  have hsplit : (bytes.drop 32).take 4 ++ (bytes.drop 36).take 4 = (bytes.drop 32).take 8 := by
    rw [show (8 : Nat) = 4 + 4 from rfl, List.take_add, List.drop_drop]
  rw [hsplit]
  apply List.ext_getElem
  · simp [h48]
  · intro i h1 _
    simp only [List.length_map, List.length_range] at h1
    rw [List.getElem_map, List.getElem_range, recvfrom_of_lt inbuf (by omega), List.getElem_take, List.getElem_drop,
      List.getD_eq_getElem _ _ (by omega)]
    congr 1
    omega

theorem ntpCalcHandler_waiting (c : CSntpSynchr) (env : NtpEnv) (buff : Nat → UInt8) (len : Nat) :
    (c.ntpCalcHandler env buff len).2.isWaitingForReply = false := by
  unfold CSntpSynchr.ntpCalcHandler
  dsimp only
  split
  · rfl
  · rfl

theorem ntpCalcHandler_offset (c : CSntpSynchr) (env : NtpEnv) (inbuf : Nat → UInt8) {bytes : List UInt8}
    (h : bytes.length = ntpRequestMsgLen) :
    (c.ntpCalcHandler env (fun i => recvfrom inbuf bytes (4 + i)) (ntpRequestMsgLen - 4)).2.baseOffset_ns =
      UInt64.ofNat (serverTime_ns bytes) - midTime c.startTime_ns env.now - m1900To1970 := by
  have h48 : bytes.length = 48 := h
  have hhi : ((bytes.drop 32).take 4).length = 4 := by simp [h48]
  have hlo : ((bytes.drop 36).take 4).length = 4 := by simp [h48]
  have hoff := calcNtpTimeOffset_eq (c.stopRecorder env.now) hhi hlo
  rw [← stamp_recvfrom inbuf h] at hoff
  exact congrArg (· - m1900To1970) hoff

/-- A reply is given to `ntpCalcHandler` when `destport` is the NTP port, and ends the
    waiting then. -/
theorem endsWait_iff {s : Board F CSntpSynchr} {d : Datagram NtpEnv} (hf : s.fault = false)
    (hw : s.sntp.isWaitingForReply = true) (hd : IsNtpReply d) : EndsWait pb narrow s d ↔ s.destport = ntpPort := by
  constructor
  · intro h
    by_contra hp
    have hwait := h.waiting
    rw [turn_waiting pb narrow hp hw, hw] at hwait
    cases hwait
  · intro hp
    have hlen := hd.length
    have hno : invocation s d = none := by
      unfold invocation
      rw [if_neg (by rw [hf]; exact Bool.false_ne_true), word_recvfrom _ (by rw [hlen]; decide)]
      dsimp only
      rw [hd.unhandled]
      rfl
    have hsntp : (turn pb narrow sntpSynchr s d).sntp =
        (s.sntp.ntpCalcHandler d.env (fun i => recvfrom s.inbuf d.bytes (4 + i)) (lenArg d.bytes.length)).2 := by
      rw [turn_unhandled pb narrow sntpSynchr hf hno]
      exact if_pos hp.symm
    have hlarg : lenArg d.bytes.length = ntpRequestMsgLen - 4 := by rw [hlen]; rfl
    have hwait : (turn pb narrow sntpSynchr s d).sntp.isWaitingForReply = false := by
      rw [hsntp]
      exact ntpCalcHandler_waiting _ _ _ _
    refine ⟨hwait, ?_, fun env => query_sent hwait env⟩
    rw [hsntp, hlarg]
    exact ntpCalcHandler_offset s.sntp d.env s.inbuf hlen

/-! ## Runs -/

theorem run_destport (ds : List (Datagram NtpEnv)) (s : Board F CSntpSynchr) (hp : s.destport = 0) :
    (run (turn pb narrow sntpSynchr) s ds).destport = 0 := by
  refine inv_run_all (I := fun s : Board F CSntpSynchr => s.destport = 0) ?_ ds s hp
  intro s d hp
  have hne : s.destport ≠ ntpPort := by rw [hp]; decide
  exact (turn_sntp pb narrow hne d).1.trans hp

/-- A board that waits is left as it is by everything that follows: every query is refused. -/
theorem run_waiting (ds : List (Datagram NtpEnv)) {s : Board F CSntpSynchr} (hp : s.destport = 0)
    (hw : s.sntp.isWaitingForReply = true) : (run (turn pb narrow sntpSynchr) s ds).sntp = s.sntp := by
  have hstep : ∀ (b : Board F CSntpSynchr) (d : Datagram NtpEnv), b.destport = 0 ∧ b.sntp = s.sntp →
      (turn pb narrow sntpSynchr b d).destport = 0 ∧ (turn pb narrow sntpSynchr b d).sntp = s.sntp := by
    intro b d hb
    obtain ⟨hdest, hsntp⟩ := hb
    have hne : b.destport ≠ ntpPort := by rw [hdest]; decide
    have hkeep := turn_waiting pb narrow hne (by rw [hsntp]; exact hw) d
    exact ⟨(turn_sntp pb narrow hne d).1.trans hdest, hkeep.trans hsntp⟩
  exact (inv_run_all hstep ds s ⟨hp, rfl⟩).2

/-- No datagram ends the waiting, an NTP reply as little as any other. -/
theorem wait_never_ended [Zero F] (inbuf : Nat → UInt8) (protocol : Nat) (retVal : Nat → Int)
    (retTyp : Nat → MotorDriverCmdType) (encoderLines : Int) (sntp : CSntpSynchr) (ds : List (Datagram NtpEnv))
    (d : Datagram NtpEnv)
    (hw : (run (turn pb narrow sntpSynchr)
      (powerUp inbuf 0 protocol retVal retTyp encoderLines sntp).board ds).sntp.isWaitingForReply = true) :
    ¬ EndsWait pb narrow
      (run (turn pb narrow sntpSynchr) (powerUp inbuf 0 protocol retVal retTyp encoderLines sntp).board ds) d := by
  intro h
  have hdest := run_destport pb narrow ds (powerUp inbuf 0 protocol retVal retTyp encoderLines sntp).board rfl
  have hne : (run (turn pb narrow sntpSynchr)
      (powerUp inbuf 0 protocol retVal retTyp encoderLines sntp).board ds).destport ≠ ntpPort := by
    rw [hdest]
    decide
  have hwait := h.waiting
  rw [turn_waiting pb narrow hne hw, hw] at hwait
  cases hwait

end TimeSync

/-! ## One query and its reply -/

def queryDatagram : Datagram NtpEnv where
  bytes := [0x13, 0x10, 0, 0]
  bytes_le := by decide
  env := { sinPort := 4000, now := ⟨10, 0⟩, socket := 3 }

/-- A server's reply, 0.2 s later. -/
def replyDatagram : Datagram NtpEnv where
  bytes := [0x24, 0x02, 0x00, 0xec] ++ List.replicate 44 0
  bytes_le := by decide
  env := { sinPort := ntpPort, now := ⟨10, 200000⟩, socket := 3 }

theorem isNtpReply_replyDatagram : IsNtpReply replyDatagram := ⟨by decide, rfl, by decide⟩

def idleSntp : CSntpSynchr where
  startTime_ns := ⟨0, 0⟩
  midTime_ns := 0
  baseOffset_ns := 0
  isWaitingForReply := false
  socketN := -1

/-- The board once it has sent the query. -/
def queried : Board Lib.Ieee.Val CSntpSynchr :=
  run (turn (nanopb fun _ => 0) narrowed sntpSynchr)
    (powerUp (fun _ => 0) 0 0 (fun _ => 0) (fun _ => .null) 0 idleSntp).board [queryDatagram]

theorem wait_never_ended_after_query : ¬ EndsWait (nanopb fun _ => 0) narrowed queried replyDatagram :=
  wait_never_ended (nanopb fun _ => 0) narrowed (fun _ => 0) 0 (fun _ => 0) (fun _ => .null) 0 idleSntp [queryDatagram]
    replyDatagram rfl

theorem reply_ignored : queried.sntp.isWaitingForReply = true ∧ IsNtpReply replyDatagram ∧
    ¬ (turn (nanopb fun _ => 0) narrowed sntpSynchr queried replyDatagram).sntp.isWaitingForReply = false := by
  refine ⟨rfl, isNtpReply_replyDatagram, ?_⟩
  rw [turn_waiting (nanopb fun _ => 0) narrowed (by decide) rfl]
  exact fun h => nomatch h

end SeerDIOBoard.Dispatch
