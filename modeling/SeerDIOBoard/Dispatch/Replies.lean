/-
  SeerDIOBoard.Dispatch.Replies — what the dispatcher's reply tells the host.

  The comments of the loop say what a reply is: 0 where no handler is found, 0 and -1
  where the handler fails, and 0 with what the handler returned otherwise (`Tells`). The
  reply is built in the request buffer, and only the first word is ever written, where a
  handler was found: an unknown command is sent back as it came, and the -1 is whatever
  the four bytes behind the command are.

  `replies_iff`: a reply tells the outcome exactly when the bytes that the loop does not
  write already have the values they should (`FilledIn`).
-/

import SeerDIOBoard.Chassis.Parameters
import SeerDIOBoard.Dispatch.ConfigPort

namespace SeerDIOBoard.Dispatch

open SeerDIOBoard.Can SeerDIOBoard.Chassis SeerDIOBoard.Mileage

variable {F D T Env : Type}

/-- What became of a datagram's command. -/
inductive Outcome where
  | notFound
  /-- A null driver was dereferenced, now or before. -/
  | crashed
  | returned (ret : Int)
  deriving DecidableEq, Repr

section Replies

variable (pb : Nanopb D) (narrow : D → F) (ntp : Sntp T Env)

def outcome (s : Board F T) (d : Datagram Env) : Outcome :=
  if s.fault = true then .crashed
  else
    let inbuf := recvfrom s.inbuf d.bytes
    match findHandler (word inbuf) with
    | none => .notFound
    | some h =>
      match handle pb narrow ntp { s with inbuf := inbuf } d.env (payload inbuf (lenArg d.bytes.length)) h with
      | none => .crashed
      | some (ret, _) => .returned ret

/-- The reply says what became of the command. -/
def Tells (s : Board F T) (d : Datagram Env) : Prop :=
  match outcome pb narrow ntp s d with
  | .notFound => (dispatch pb narrow ntp s d).2 = some [0, 0, 0, 0]
  | .crashed => True
  | .returned ret =>
    0xA000 < toInt32 (word fun i => d.bytes.getD i 0) →
      if ret < 0 then (dispatch pb narrow ntp s d).2 = some [0, 0, 0, 0, 0xff, 0xff, 0xff, 0xff]
      else ∃ l : List UInt8, l.length = ret.toNat ∧ (dispatch pb narrow ntp s d).2 = some ([0, 0, 0, 0] ++ l)

end Replies

/-- The configuration commands that take a message, with one that `pb_decode` does not
    accept. -/
def Refused (pb : Nanopb D) (ct : Nat) (payload : List UInt8) : Prop :=
  (ct = 0xA004 ∧ (pb.chassisDemandConfig payload).1 = false) ∨ (ct = 0xA005 ∧ (pb.chassisConfig payload).1 = false)

instance (pb : Nanopb D) (ct : Nat) (payload : List UInt8) : Decidable (Refused pb ct payload) :=
  inferInstanceAs (Decidable (_ ∨ _))

/-- What the loop does not write is right as it is: the word of a command without a
    handler is 0, and the four bytes behind a refused one are FF. -/
def FilledIn (pb : Nanopb D) (s : Board F T) (d : Datagram Env) : Prop :=
  s.fault = false →
    (findHandler (word fun i => d.bytes.getD i 0) = none → (word fun i => d.bytes.getD i 0) = 0) ∧
      (Refused pb (word fun i => d.bytes.getD i 0) (d.bytes.drop 4) →
        ConfigPort.parameterWord (recvfrom s.inbuf d.bytes) = 0xffffffff)

/-! ## The bytes of a reply -/

theorem reply_four (inbuf : Nat → UInt8) : reply inbuf 4 = [inbuf 0, inbuf 1, inbuf 2, inbuf 3] := rfl

theorem reply_eight (inbuf : Nat → UInt8) :
    reply (clearWord inbuf) 8 = [0, 0, 0, 0, inbuf 4, inbuf 5, inbuf 6, inbuf 7] := rfl

theorem word_eq_zero (f : Nat → UInt8) : word f = 0 ↔ [f 0, f 1, f 2, f 3] = [0, 0, 0, 0] := by
  have hzero (b : UInt8) : b = 0 ↔ b.toNat = 0 := UInt8.toNat_inj.symm
  simp only [List.cons.injEq, and_true, hzero, word]
  omega

theorem reply_minusOne (inbuf : Nat → UInt8) :
    reply (clearWord inbuf) 8 = [0, 0, 0, 0, 0xff, 0xff, 0xff, 0xff] ↔ ConfigPort.parameterWord inbuf = 0xffffffff := by
  rw [reply_eight, ConfigPort.parameterWord_eq_ones]
  constructor
  · intro h i h4 h8
    simp only [List.cons.injEq, true_and, and_true] at h
    obtain ⟨b4, b5, b6, b7⟩ := h
    obtain rfl | rfl | rfl | rfl : i = 4 ∨ i = 5 ∨ i = 6 ∨ i = 7 := by omega
    · exact b4
    · exact b5
    · exact b6
    · exact b7
  · intro h
    rw [h 4 (by decide) (by decide), h 5 (by decide) (by decide), h 6 (by decide) (by decide),
      h 7 (by decide) (by decide)]

/-! ## The handlers' results -/

theorem row_of_findHandler {ct : Nat} {h : Handler} (hfind : findHandler ct = some h) : (ct, h) ∈ commandHandlerTab := by
  obtain ⟨row, hrow, rfl⟩ := Option.map_eq_some_iff.mp hfind
  have hct : row.1 = ct := by simpa using List.find?_some hrow
  rw [← hct]
  exact List.mem_of_find?_eq_some hrow

/-- Which command each handler stands for. -/
theorem command_of_handler {ct : Nat} {h : Handler} (hfind : findHandler ct = some h) :
    (h = .configChassisType ↔ ct = 0xA004) ∧ (h = .initMileageParamCommand ↔ ct = 0xA005) ∧
      (0xA000 < ct → h ≠ .timeSyncQuery ∧ h ≠ .chassisCommand) := by
  have hrows : ∀ row ∈ commandHandlerTab, (row.2 = .configChassisType ↔ row.1 = 0xA004) ∧
      (row.2 = .initMileageParamCommand ↔ row.1 = 0xA005) ∧
        (0xA000 < row.1 → row.2 ≠ .timeSyncQuery ∧ row.2 ≠ .chassisCommand) := by decide
  exact hrows _ (row_of_findHandler hfind)

/-- A configuration handler fails exactly for a message that is refused, and leaves the
    buffer alone. -/
theorem handle_config (pb : Nanopb D) (narrow : D → F) (ntp : Sntp T Env) {s s' : Board F T} {env : Env}
    {bytes : List UInt8} {ct : Nat} {h : Handler} {ret : Int} (hfind : findHandler ct = some h) (hct : 0xA000 < ct)
    (hh : handle pb narrow ntp s env bytes h = some (ret, s')) :
    s'.inbuf = s.inbuf ∧ (Refused pb ct bytes ∧ ret = -1 ∨ ¬ Refused pb ct bytes ∧ ret = 0) := by
  obtain ⟨htype, hparam, hconf⟩ := command_of_handler hfind
  cases h with
  | timeSyncQuery => exact absurd rfl (hconf hct).1
  | chassisCommand => exact absurd rfl (hconf hct).2
  | gyroCmd =>
    obtain ⟨rfl, rfl⟩ := Prod.mk.inj (Option.some.inj hh)
    exact ⟨rfl, .inr ⟨by simp [Refused, ← htype, ← hparam], rfl⟩⟩
  | nullConfigCmd =>
    obtain ⟨rfl, rfl⟩ := Prod.mk.inj (Option.some.inj hh)
    exact ⟨rfl, .inr ⟨by simp [Refused, ← htype, ← hparam], rfl⟩⟩
  | configChassisType =>
    obtain ⟨rfl, rfl⟩ := Prod.mk.inj (Option.some.inj hh)
    refine ⟨rfl, ?_⟩
    have hrefused : Refused pb ct bytes ↔ (pb.chassisDemandConfig bytes).1 = false := by
      simp [Refused, ← htype, ← hparam]
    rw [hrefused]
    cases hdec : (pb.chassisDemandConfig bytes).1 with
    | false => exact .inl ⟨rfl, by rw [accepted, hdec]; rfl⟩
    | true =>
      refine .inr ⟨(fun hno => nomatch hno), ?_⟩
      rw [accepted, hdec, if_pos rfl]
      unfold configChassisTypeFunc
      dsimp only
      split <;> rfl
  | initMileageParamCommand =>
    obtain ⟨r, hr, hs'⟩ := Option.map_eq_some_iff.mp hh
    obtain ⟨rfl, rfl⟩ := Prod.mk.inj hs'
    refine ⟨rfl, ?_⟩
    have hrefused : Refused pb ct bytes ↔ (pb.chassisConfig bytes).1 = false := by
      simp [Refused, ← htype, ← hparam]
    rw [hrefused]
    cases hdec : (pb.chassisConfig bytes).1 with
    | false =>
      rw [accepted, hdec, if_neg Bool.false_ne_true] at hr
      exact .inl ⟨rfl, (congrArg Prod.fst (Option.some.inj hr)).symm⟩
    | true =>
      rw [accepted, hdec, if_pos rfl] at hr
      exact .inr ⟨(fun hno => nomatch hno), initializeParamBy_accepted (r := r.1) hr⟩

/-- Only a message that was accepted leads to a null driver. -/
theorem not_refused_of_crashed (pb : Nanopb D) (narrow : D → F) (ntp : Sntp T Env) {s : Board F T} {env : Env}
    {bytes : List UInt8} {ct : Nat} {h : Handler} (hfind : findHandler ct = some h)
    (hh : handle pb narrow ntp s env bytes h = none) : ¬ Refused pb ct bytes := by
  obtain ⟨htype, hparam, -⟩ := command_of_handler hfind
  cases h with
  | initMileageParamCommand =>
    obtain ⟨m, hm, -⟩ := (initializeParam_none_iff _ _).mp (Option.map_eq_none_iff.mp hh)
    intro href
    rcases href with ⟨hc, _⟩ | ⟨_, hdec⟩
    · cases htype.mpr hc
    · rw [accepted, hdec, if_neg Bool.false_ne_true] at hm
      cases hm
  | _ => cases hh

/-- The commands of the table are positive as `int32_t`. -/
theorem toInt32_command {ct : Nat} {h : Handler} (hfind : findHandler ct = some h) : toInt32 ct = ct := by
  have hrows : ∀ row ∈ commandHandlerTab, row.1 < 2 ^ 31 := by decide
  have hlt : ct < 2 ^ 31 := hrows _ (row_of_findHandler hfind)
  unfold toInt32
  exact Int.bmod_eq_of_le (by omega) (by omega)

section Replies

variable (pb : Nanopb D) (narrow : D → F) (ntp : Sntp T Env)

theorem tells_notFound {s : Board F T} {d : Datagram Env} (hf : s.fault = false)
    (hfind : findHandler (word (recvfrom s.inbuf d.bytes)) = none) :
    Tells pb narrow ntp s d ↔ word (recvfrom s.inbuf d.bytes) = 0 := by
  have hf' : ¬ s.fault = true := by rw [hf]; exact Bool.false_ne_true
  have hout : outcome pb narrow ntp s d = .notFound := by
    unfold outcome
    rw [if_neg hf']
    simp only [hfind]
  have hreply : (dispatch pb narrow ntp s d).2 = some (reply (recvfrom s.inbuf d.bytes) 4) := by
    unfold dispatch
    rw [if_neg hf']
    simp only [hfind]
  unfold Tells
  rw [hout, word_eq_zero]
  show (dispatch pb narrow ntp s d).2 = some [0, 0, 0, 0] ↔ _
  rw [hreply, reply_four, Option.some.injEq]

/-- A handler that returns: the reply is the buffer it leaves, with the first word cleared. -/
theorem tells_returned {s s' : Board F T} {d : Datagram Env} {h : Handler} {ret : Int} (hf : s.fault = false)
    (h4 : 4 ≤ d.bytes.length) (hfind : findHandler (word fun i => d.bytes.getD i 0) = some h)
    (hh : handle pb narrow ntp { s with inbuf := recvfrom s.inbuf d.bytes } d.env (d.bytes.drop 4) h = some (ret, s')) :
    Tells pb narrow ntp s d ↔
      (Refused pb (word fun i => d.bytes.getD i 0) (d.bytes.drop 4) →
        ConfigPort.parameterWord (recvfrom s.inbuf d.bytes) = 0xffffffff) := by
  have hf' : ¬ s.fault = true := by rw [hf]; exact Bool.false_ne_true
  rw [← word_recvfrom s.inbuf h4] at hfind ⊢
  rw [← payload_recvfrom s.inbuf h4 d.bytes_le] at hh ⊢
  have hout : outcome pb narrow ntp s d = .returned ret := by
    unfold outcome
    rw [if_neg hf']
    simp only [hfind, hh]
  have hreply : (dispatch pb narrow ntp s d).2 =
      if toInt32 (word (recvfrom s.inbuf d.bytes)) > 0xA000 then
        some (reply (clearWord s'.inbuf) (if ret < 0 then 8 else ret + 4))
      else none := by
    unfold dispatch
    rw [if_neg hf']
    simp only [hfind, hh]
  unfold Tells
  rw [hout]
  show (0xA000 < toInt32 (word fun i => d.bytes.getD i 0) → _) ↔ _
  rw [← word_recvfrom s.inbuf h4, hreply, toInt32_command hfind]
  by_cases hct : 0xA000 < word (recvfrom s.inbuf d.bytes)
  · have hcode : (0xA000 : Int) < word (recvfrom s.inbuf d.bytes) := by omega
    obtain ⟨hbuf, ⟨href, rfl⟩ | ⟨href, rfl⟩⟩ := handle_config pb narrow ntp hfind hct hh
    · rw [if_pos (show (-1 : Int) < 0 by decide), if_pos (show (-1 : Int) < 0 by decide), if_pos hcode,
        Option.some.injEq, hbuf, reply_minusOne]
      exact ⟨fun h _ => h hcode, fun h _ => h href⟩
    · rw [if_neg (show ¬ (0 : Int) < 0 by decide), if_neg (show ¬ (0 : Int) < 0 by decide), if_pos hcode]
      exact ⟨fun _ h => absurd h href, fun _ _ => ⟨[], rfl, rfl⟩⟩
  · have hcode : ¬ (0xA000 : Int) < word (recvfrom s.inbuf d.bytes) := by omega
    refine ⟨fun _ href => absurd ?_ hct, fun _ h => absurd h hcode⟩
    rcases href with ⟨hc, _⟩ | ⟨hc, _⟩
    · omega
    · omega

theorem replies_iff (s : Board F T) (d : Datagram Env) (h4 : 4 ≤ d.bytes.length) :
    Tells pb narrow ntp s d ↔ FilledIn pb s d := by
  unfold FilledIn
  by_cases hf : s.fault = true
  · have hout : outcome pb narrow ntp s d = .crashed := if_pos hf
    unfold Tells
    rw [hout]
    exact ⟨fun _ h => absurd (hf.symm.trans h) (by decide), fun _ => trivial⟩
  have hf' : s.fault = false := Bool.eq_false_of_not_eq_true hf
  simp only [hf', true_imp_iff]
  cases hfind : findHandler (word fun i => d.bytes.getD i 0) with
  | none =>
    have hno : ¬ Refused pb (word fun i => d.bytes.getD i 0) (d.bytes.drop 4) := by
      rintro (⟨hc, _⟩ | ⟨hc, _⟩)
      · rw [hc] at hfind
        cases hfind
      · rw [hc] at hfind
        cases hfind
    rw [tells_notFound pb narrow ntp hf' (by rw [word_recvfrom _ h4]; exact hfind), word_recvfrom _ h4]
    exact ⟨fun h => ⟨fun _ => h, fun h => absurd h hno⟩, fun h => h.1 rfl⟩
  | some h =>
    cases hh : handle pb narrow ntp { s with inbuf := recvfrom s.inbuf d.bytes } d.env (d.bytes.drop 4) h with
    | some r =>
      rw [tells_returned pb narrow ntp hf' h4 hfind hh]
      exact ⟨fun hr => ⟨fun hn => (nomatch hn), hr⟩, fun hr => hr.2⟩
    | none =>
      have hno := not_refused_of_crashed pb narrow ntp hfind hh
      have hout : outcome pb narrow ntp s d = .crashed := by
        rw [← word_recvfrom s.inbuf h4] at hfind
        rw [← payload_recvfrom s.inbuf h4 d.bytes_le] at hh
        unfold outcome
        rw [if_neg hf]
        simp only [hfind, hh]
      unfold Tells
      rw [hout]
      exact ⟨fun _ => ⟨fun hn => (nomatch hn), fun h => absurd h hno⟩, fun _ => trivial⟩

end Replies

/-! ## Two replies that tell something else -/

def quietBoard : Board Lib.Ieee.Val Unit := (powerUp (fun _ => 0) 0 0 (fun _ => 0) (fun _ => .null) 0 ()).board

def noSntp : Sntp Unit Unit := { ntpQueryHandler := fun t _ => (0, t), ntpCalcHandler := fun t _ _ _ => t }

def nullConfigDatagram : Datagram Unit := { bytes := [0x02, 0xA0, 0, 0], bytes_le := by decide, env := () }

theorem replies_nullConfig : Tells (nanopb fun _ => 0) narrowed noSntp quietBoard nullConfigDatagram :=
  (replies_iff (nanopb fun _ => 0) narrowed noSntp quietBoard nullConfigDatagram (by decide)).mpr
    fun _ => ⟨fun h => absurd h (by decide), fun h => absurd h (by decide)⟩

/-- No handler has 2; it comes back as it was sent. -/
def unknownCommand : Datagram Unit := { bytes := [0x02, 0, 0, 0], bytes_le := by decide, env := () }

/-- A chassis type with a payload that ends behind its first tag. -/
def refusedType : Datagram Unit := { bytes := [0x04, 0xA0, 0, 0, 0x08], bytes_le := by decide, env := () }

theorem replies_untold :
    ¬ Tells (nanopb fun _ => 0) narrowed noSntp quietBoard unknownCommand ∧
      ¬ Tells (nanopb fun _ => 0) narrowed noSntp quietBoard refusedType := by
  constructor
  · intro h
    exact absurd ((tells_notFound (nanopb fun _ => 0) narrowed noSntp rfl rfl).mp h) (by decide)
  · intro h
    have hword := (tells_returned (nanopb fun _ => 0) narrowed noSntp rfl (by decide) (h := .configChassisType) rfl rfl).mp h
      (by decide)
    exact absurd hword (by decide)

end SeerDIOBoard.Dispatch
