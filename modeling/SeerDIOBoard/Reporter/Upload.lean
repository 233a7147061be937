/-
  SeerDIOBoard.Reporter.Upload — where the reports go (`CReporter_base::upload` and
  `uploadRbk`, src/Reporter.cxx).

  The first `upload` of an instance makes its socket and fills in `destaddr` and the local
  `addrlen` on the way; a later one finds the socket there and skips all of it. `destaddr`
  is a member and still has what was written, the port of the first call included;
  `addrlen` is a local, and nobody has written it. `none` is memory that nobody has
  written. `port` and the address are as they are in front of `HTONS` and `HTONL`.

  - `sendto_eq`: in every run, what each call sends and where. An instance keeps the socket
    and the port of its first call that got a socket, whatever port later ones ask for.
  - `upload_addressed_iff`: every datagram goes to the requested port with the length of
    the address known, exactly in the runs where no instance sends twice.
-/

import Mathlib.Data.List.Induction
import SeerDIOBoard.Reporter.Buffer

namespace SeerDIOBoard.Reporter

open Function (update)
open Lib.Machine

/-- What the system's headers say. -/
structure Inet where
  afInet : Nat
  sizeofSockaddrIn : Nat

structure SockaddrIn where
  family : Nat
  port : Nat
  addr : Nat
  deriving DecidableEq, Repr

/-- The arguments of a `sendto`. -/
structure Sendto where
  socket : Int
  len : Nat
  destaddr : Option SockaddrIn
  addrlen : Option Nat
  deriving DecidableEq, Repr

structure CReporterBase where
  destaddr : Option SockaddrIn
  socketN : Int
  deriving DecidableEq, Repr

namespace CReporterBase

def new : CReporterBase := { destaddr := none, socketN := -1 }

/-- 192.168.192.5. -/
def rptDestip : Nat := 0xc0a8c005

def rptDestport : Nat := 5002

/-- What `upload` returns, leaves and sends; `socket` and `sent` are what `socket` and
    `sendto` return if they are called. -/
def upload (os : Inet) (r : CReporterBase) (len port : Nat) (socket sent : Int) : Int × CReporterBase × Option Sendto :=
  if r.socketN < 0 then
    let r := { r with destaddr := some { family := os.afInet, port := port, addr := rptDestip } }
    let addrlen := some os.sizeofSockaddrIn
    let r := { r with socketN := socket }
    if r.socketN < 0 then (1, r, none)
    else (sent, r, some { socket := r.socketN, len := len, destaddr := r.destaddr, addrlen := addrlen })
  else (sent, r, some { socket := r.socketN, len := len, destaddr := r.destaddr, addrlen := none })

def uploadRbk (os : Inet) (r : CReporterBase) (len : Nat) (socket sent : Int) : Int × CReporterBase × Option Sendto :=
  r.upload os len rptDestport socket sent

/-! ## Runs -/

variable {ι : Type} [DecidableEq ι]

/-- A call of `upload` on an instance, with what the system returns. -/
structure Call (ι : Type) where
  who : ι
  len : Nat
  port : Nat
  socket : Int
  sent : Int

def called (os : Inet) (s : ι → CReporterBase) (e : Call ι) : Int × CReporterBase × Option Sendto :=
  (s e.who).upload os e.len e.port e.socket e.sent

def step (os : Inet) (s : ι → CReporterBase) (e : Call ι) : ι → CReporterBase := update s e.who (called os s e).2.1

/-- The datagram goes where the call asked for, and its address has the right length. -/
structure Addressed (os : Inet) (port : Nat) (t : Sendto) : Prop where
  destaddr : t.destaddr = some { family := os.afInet, port := port, addr := rptDestip }
  addrlen : t.addrlen = some os.sizeofSockaddrIn
  socket : 0 ≤ t.socket

def SendsAddressed (os : Inet) (s : ι → CReporterBase) (e : Call ι) : Prop :=
  ∀ t, (called os s e).2.2 = some t → Addressed os e.port t

/-- The instance has no socket yet. -/
def NoSocketYet (s : ι → CReporterBase) (e : Call ι) : Prop := (s e.who).socketN < 0

omit [DecidableEq ι] in
theorem sendsAddressed_iff (os : Inet) (s : ι → CReporterBase) (e : Call ι) :
    SendsAddressed os s e ↔ NoSocketYet s e := by
  unfold SendsAddressed NoSocketYet called upload
  by_cases hs : (s e.who).socketN < 0
  · rw [if_pos hs]
    refine iff_of_true (fun t ht => ?_) hs
    dsimp only at ht
    split at ht
    · cases ht
    case isFalse hsock =>
      obtain rfl := Option.some.inj ht
      exact ⟨rfl, rfl, Int.not_lt.mp hsock⟩
  · rw [if_neg hs]
    refine iff_of_false (fun h => ?_) hs
    have hlen := (h _ rfl).addrlen
    cases hlen

theorem upload_addressed_iff (os : Inet) (es : List (Call ι)) :
    Along (step os) (SendsAddressed os) (fun _ => new) es ↔ Along (step os) NoSocketYet (fun _ => new) es :=
  along_iff_of_inv (I := fun _ => True) (fun _ _ _ _ => trivial) (fun s e _ => sendsAddressed_iff os s e) es _ trivial

/-! ## Two reports -/

def board : Inet := { afInet := 2, sizeofSockaddrIn := 16 }

/-- Two reports of the gyro; its socket is 3. -/
def gyroReports : List (Call Instance) := List.replicate 2 ⟨.gyro, 40, rptDestport, 3, 40⟩

theorem secondReport_unaddressed : ¬ Along (step board) (SendsAddressed board) (fun _ => new) gyroReports := by
  intro h
  have hlen : (none : Option Nat) = some 16 := (h.2.1 _ rfl).addrlen
  cases hlen

/-! ## Every datagram of a run -/

/-- The call that has made the socket of `i`. -/
def opened (i : ι) (es : List (Call ι)) : Option (Call ι) := es.find? fun e => e.who = i ∧ 0 ≤ e.socket

/-- What `opened` says of an instance is what the instance is. -/
def Opened (os : Inet) (r : CReporterBase) : Option (Call ι) → Prop
  | some c =>
    0 ≤ c.socket ∧ r = { destaddr := some { family := os.afInet, port := c.port, addr := rptDestip }, socketN := c.socket }
  | none => r.socketN < 0

theorem opened_self (es : List (Call ι)) (e : Call ι) :
    opened e.who (es ++ [e]) = (opened e.who es).or (if 0 ≤ e.socket then some e else none) := by
  unfold opened
  rw [List.find?_append, List.find?_singleton]
  simp

theorem opened_other {i : ι} (es : List (Call ι)) {e : Call ι} (h : i ≠ e.who) : opened i (es ++ [e]) = opened i es := by
  unfold opened
  rw [List.find?_append, List.find?_singleton, if_neg (by simp [h.symm]), Option.or_none]

omit [DecidableEq ι] in
/-- An instance with a socket stays as it is; one without has what the call gives it. -/
theorem opened_upload (os : Inet) {r : CReporterBase} {c : Option (Call ι)} (h : Opened os r c) (e : Call ι) :
    Opened os (r.upload os e.len e.port e.socket e.sent).2.1 (c.or (if 0 ≤ e.socket then some e else none)) := by
  unfold upload
  cases c with
  | some c =>
    obtain ⟨hsock, rfl⟩ := h
    rw [if_neg (Int.not_lt.mpr hsock)]
    exact ⟨hsock, rfl⟩
  | none =>
    have hnone : r.socketN < 0 := h
    rw [if_pos hnone, Option.none_or]
    dsimp only
    by_cases hsock : e.socket < 0
    · rw [if_pos hsock, if_neg (Int.not_le.mpr hsock)]
      exact hsock
    · rw [if_neg hsock, if_pos (Int.not_lt.mp hsock)]
      exact ⟨Int.not_lt.mp hsock, rfl⟩

theorem opened_run (os : Inet) (es : List (Call ι)) (i : ι) : Opened os (run (step os) (fun _ => new) es i) (opened i es) := by
  induction es using List.reverseRecOn with
  | nil => exact (by decide : (-1 : Int) < 0)
  | append_singleton es e ih =>
    rw [run_snoc, step]
    by_cases hi : i = e.who
    · subst hi
      rw [Function.update_self, opened_self]
      exact opened_upload os ih e
    · rw [Function.update_of_ne hi, opened_other es hi]
      exact ih

/-- What a call sends after the calls `es`. -/
def sendtoAfter (os : Inet) (es : List (Call ι)) (e : Call ι) : Option Sendto :=
  let host (port : Nat) : SockaddrIn := { family := os.afInet, port := port, addr := rptDestip }
  match opened e.who es with
  | some c => some { socket := c.socket, len := e.len, destaddr := some (host c.port), addrlen := none }
  | none =>
    if e.socket < 0 then none
    else some { socket := e.socket, len := e.len, destaddr := some (host e.port), addrlen := some os.sizeofSockaddrIn }

theorem sendto_eq (os : Inet) (es : List (Call ι)) (e : Call ι) :
    (called os (run (step os) (fun _ => new) es) e).2.2 = sendtoAfter os es e := by
  have hinst := opened_run os es e.who
  unfold called upload sendtoAfter
  cases hc : opened e.who es with
  | some c =>
    rw [hc] at hinst
    obtain ⟨hsock, hr⟩ := hinst
    rw [hr, if_neg (Int.not_lt.mpr hsock)]
  | none =>
    rw [hc] at hinst
    have hnone : (run (step os) (fun _ => new) es e.who).socketN < 0 := hinst
    rw [if_pos hnone]
    dsimp only
    split
    · rfl
    · rfl

/-! ## The shared buffer -/

/-- `Reporter.upload`, which keeps to the socket and the buffer, does the same to the socket
    and sends in the same calls. -/
theorem upload_socketN (os : Inet) (s : Reporters ι) (i : ι) (destaddr : Option SockaddrIn) (len port : Nat)
    (socket sent : Int) :
    (Reporter.upload s i socket).socketN =
        update s.socketN i (upload os { destaddr, socketN := s.socketN i } len port socket sent).2.1.socketN ∧
      (Reporter.upload s i socket).sent =
        s.sent ++ (upload os { destaddr, socketN := s.socketN i } len port socket sent).2.2.toList.map
          fun _ => (s.typeOf, s.bodyOf) := by
  unfold Reporter.upload upload
  by_cases hs : s.socketN i < 0
  · rw [if_pos hs, if_pos hs]
    dsimp only
    split
    · exact ⟨rfl, (List.append_nil _).symm⟩
    · exact ⟨rfl, rfl⟩
  · rw [if_neg hs, if_neg hs]
    exact ⟨(Function.update_eq_self i s.socketN).symm, rfl⟩

end CReporterBase

end SeerDIOBoard.Reporter
