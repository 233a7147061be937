/-
  SeerDIOBoard.Dispatch.Wire — the host's commands, from the message to what the board does.

  `Command` is a command as the host means it and `obey` what the board's devices make of
  it; `Command.bytes` is the datagram that carries it, the command word and the encoded
  message. The decoder is the one of protobuffer/ (`nanopb`).

  - `commands_obeyed`: fed commands and any other datagrams of at least four bytes, the
    dispatcher ends with the devices that obeying the commands gives, and crashes exactly
    where that stops.
  - `cut_config`: a configuration command that lost its end is refused, or obeyed with its
    last fields zero.
-/

import SeerDIOBoard.Dispatch.Lengths
import SeerDIOBoard.Dispatch.Nanopb
import SeerDIOBoard.Dispatch.SpeedCommand
import SeerDIOBoard.Pb.Truncated

namespace SeerDIOBoard.Dispatch

open Lib.Bytes Lib.Machine
open SeerDIOBoard.Can SeerDIOBoard.Chassis SeerDIOBoard.Mileage
open SeerDIOBoard.Pb hiding Decodes

/-! ## Commands -/

inductive Command where
  | chassisCmd (m : navSpeedFields.Msg)
  | chassisDemand (m : chassisDemandConfigFields.Msg)
  | chassisConfig (m : chassisConfigFields.Msg)

namespace Command

def word : Command → Nat
  | chassisCmd _ => 0x1034
  | chassisDemand _ => 0xA004
  | chassisConfig _ => 0xA005

def handler : Command → Handler
  | chassisCmd _ => .chassisCommand
  | chassisDemand _ => .configChassisType
  | chassisConfig _ => .initMileageParamCommand

def body : Command → List UInt8
  | chassisCmd m => msgBytes navSpeedFields m
  | chassisDemand m => msgBytes chassisDemandConfigFields m
  | chassisConfig m => msgBytes chassisConfigFields m

def bytes (c : Command) : List UInt8 := leBytes 4 c.word ++ c.body

/-- The words of the commands. -/
def words : List Nat := [0x1034, 0xA004, 0xA005]

theorem word_lt (c : Command) : c.word < 2 ^ 32 := by cases c <;> exact of_decide_eq_true rfl

theorem findHandler_word (c : Command) : findHandler c.word = some c.handler := by cases c <;> rfl

theorem body_length_le (c : Command) : c.body.length ≤ 1020 := by
  have hraw : ∀ fs, fs ∈ boardTables → fs.maxSize (fun _ => 10) ≤ 1020 := by decide
  have hle : ∀ fs, fs ∈ boardTables → ∀ m : fs.Msg, (msgBytes fs m).length ≤ 1020 := fun fs hfs m =>
    Nat.le_trans (length_msgBytes_le (Fields.all_of_forall scalarBytes_length_le_ten fs m)) (hraw fs hfs)
  cases c with
  | chassisCmd m => exact hle navSpeedFields (by decide) m
  | chassisDemand m => exact hle chassisDemandConfigFields (by decide) m
  | chassisConfig m => exact hle chassisConfigFields (by decide) m

end Command

variable {F T Env : Type}

/-- What the devices make of a command; `none` where a null driver is dereferenced. -/
def obey (float : Single → ℚ) (narrow : Double → F) (s : Devices F) : Command → Option (Devices F)
  | .chassisCmd m => some { s with chassis := (chassisCmdHandler narrow s.chassis (true, navSpeedOf m)).2 }
  | .chassisDemand m => some (configChassisTypeFunc s (some (chassisDemandConfigOf m))).2
  | .chassisConfig m => (initializeParam s (some (chassisConfigOf float m))).map (·.2)

/-! ## Datagrams -/

/-- A command word and some bytes. -/
def wireDatagram (w : Nat) (body : List UInt8) (h : body.length ≤ 1020) (env : Env) : Datagram Env where
  bytes := leBytes 4 w ++ body
  bytes_le := by
    rw [List.length_append, leBytes_length]
    omega
  env := env

def Command.datagram (c : Command) (env : Env) : Datagram Env := wireDatagram c.word c.body c.body_length_le env

theorem word_leBytes {w : Nat} (hw : w < 2 ^ 32) (body : List UInt8) :
    (word fun i => (leBytes 4 w ++ body).getD i 0) = w := by
  have hle : littleEndian (leBytes 4 w) = w := littleEndian_leBytes_toNat hw
  have hword : (word fun i => (leBytes 4 w ++ body).getD i 0) = littleEndian (leBytes 4 w) := by
    simp only [word, leBytes, littleEndian, List.cons_append, List.getD_cons_zero, List.getD_cons_succ]
    ring
  rw [hword, hle]

theorem length_wireDatagram (w : Nat) (body : List UInt8) : 4 ≤ (leBytes 4 w ++ body).length := by
  rw [List.length_append, leBytes_length]
  exact Nat.le_add_right 4 _

/-- The handler of the word is called. -/
theorem invocation_wireDatagram {s : Board F T} (hf : s.fault = false) {w : Nat} (hw : w < 2 ^ 32) {h : Handler}
    (hfind : findHandler w = some h) {body : List UInt8} (hbody : body.length ≤ 1020) (env : Env) :
    invocation s (wireDatagram w body hbody env) = some ⟨w, h, lenArg (leBytes 4 w ++ body).length⟩ := by
  have hword : word (recvfrom s.inbuf (wireDatagram w body hbody env).bytes) = w :=
    (word_recvfrom s.inbuf (length_wireDatagram w body)).trans (word_leBytes hw body)
  unfold invocation
  rw [if_neg (by rw [hf]; exact Bool.false_ne_true)]
  dsimp only
  rw [hword, hfind]
  rfl

/-- And gets the body. -/
theorem payload_wireDatagram (inbuf : Nat → UInt8) (w : Nat) {body : List UInt8} (hbody : body.length ≤ 1020) :
    payload (recvfrom inbuf (leBytes 4 w ++ body)) (lenArg (leBytes 4 w ++ body).length) = body := by
  rw [payload_recvfrom inbuf (length_wireDatagram w body) (wireDatagram w body hbody ()).bytes_le]
  exact List.drop_left' (leBytes_length 4 _)

theorem turn_wireDatagram (pb : Nanopb Double) (narrow : Double → F) (ntp : Sntp T Env) {s : Board F T}
    (hf : s.fault = false) {w : Nat} (hw : w < 2 ^ 32) {h : Handler} (hfind : findHandler w = some h)
    {body : List UInt8} (hbody : body.length ≤ 1020) (env : Env) :
    turn pb narrow ntp s (wireDatagram w body hbody env) =
      match handle pb narrow ntp { s with inbuf := recvfrom s.inbuf (leBytes 4 w ++ body) } env body h with
      | none => { s with inbuf := recvfrom s.inbuf (leBytes 4 w ++ body), fault := true }
      | some (_, s') => { s' with inbuf := clearWord s'.inbuf } := by
  rw [turn_invoked pb narrow ntp (invocation_wireDatagram hf hw hfind hbody env)]
  show (match handle pb narrow ntp _ env (payload (recvfrom s.inbuf (leBytes 4 w ++ body)) _) h with
    | none => _
    | some (_, s') => _) = _
  rw [payload_wireDatagram s.inbuf w hbody]
  rfl

/-! ## Runs -/

/-- The devices of a board that runs. -/
def Board.outcome (s : Board F T) : Option (Devices F) := if s.fault = true then none else some s.devices

/-- What comes in on the ports: commands, and datagrams with another word. -/
inductive Traffic (Env : Type) where
  | command (c : Command) (env : Env)
  | other (d : Datagram Env) (h4 : 4 ≤ d.bytes.length) (h : word (fun i => d.bytes.getD i 0) ∉ Command.words)

namespace Traffic

def datagram : Traffic Env → Datagram Env
  | command c env => c.datagram env
  | other d _ _ => d

def obey (float : Single → ℚ) (narrow : Double → F) (s : Devices F) : Traffic Env → Option (Devices F)
  | command c _ => Dispatch.obey float narrow s c
  | other _ _ _ => some s

end Traffic

section Runs

variable (float : Single → ℚ) (narrow : Double → F) (ntp : Sntp T Env)

theorem outcome_command (s : Board F T) (hf : s.fault = false) (c : Command) (env : Env) :
    (turn (nanopb float) narrow ntp s (c.datagram env)).outcome = obey float narrow s.devices c := by
  rw [Command.datagram, turn_wireDatagram (nanopb float) narrow ntp hf c.word_lt c.findHandler_word]
  cases c with
  | chassisCmd m =>
    simp only [Command.handler, handle, nanopb, Command.body]
    rw [decodeInto_msgBytes (by decide)]
    simp [Board.outcome, obey, hf]
  | chassisDemand m =>
    simp only [Command.handler, handle, nanopb, Command.body]
    rw [decodeInto_msgBytes (by decide)]
    simp [Board.outcome, obey, accepted, hf]
  | chassisConfig m =>
    simp only [Command.handler, handle, nanopb, Command.body]
    rw [decodeInto_msgBytes (by decide)]
    simp only [obey, accepted, if_true]
    cases initializeParam s.devices (some (chassisConfigOf float m)) with
    | none => rfl
    | some r => simp [Board.outcome, hf]

/-- Whether a handler has to do with the devices. -/
def Handler.setsDevices : Handler → Bool
  | .chassisCommand | .configChassisType | .initMileageParamCommand => true
  | .gyroCmd | .nullConfigCmd | .timeSyncQuery => false

theorem setsDevices_of_word {w : Nat} {h : Handler} (hfind : findHandler w = some h) (hw : w ∉ Command.words) :
    h.setsDevices = false := by
  obtain ⟨row, hrow, rfl⟩ := Option.map_eq_some_iff.mp hfind
  have hmem := List.mem_of_find?_eq_some hrow
  have hword : row.1 = w := by simpa using List.find?_some hrow
  have htab : ∀ row, row ∈ commandHandlerTab → row.1 ∉ Command.words → row.2.setsDevices = false := by decide
  exact htab row hmem (hword ▸ hw)

theorem handle_keeps (pb : Nanopb Double) (s : Board F T) (env : Env) (payload : List UInt8) {h : Handler}
    (hh : h.setsDevices = false) : ∃ ret t, handle pb narrow ntp s env payload h = some (ret, { s with sntp := t }) := by
  cases h with
  | gyroCmd => exact ⟨_, s.sntp, rfl⟩
  | nullConfigCmd => exact ⟨_, s.sntp, rfl⟩
  | timeSyncQuery => exact ⟨_, _, rfl⟩
  | chassisCommand | configChassisType | initMileageParamCommand => cases hh

theorem outcome_other (pb : Nanopb Double) (s : Board F T) (d : Datagram Env) (h4 : 4 ≤ d.bytes.length)
    (hw : word (fun i => d.bytes.getD i 0) ∉ Command.words) : (turn pb narrow ntp s d).outcome = s.outcome := by
  by_cases hf : s.fault = true
  · rw [turn_fault pb narrow ntp d hf]
  have hf' : s.fault = false := Bool.eq_false_of_not_eq_true hf
  cases hinv : invocation s d with
  | none => rw [turn_unhandled pb narrow ntp hf' hinv, Board.outcome, Board.outcome]
  | some v =>
    have hfind : findHandler (word fun i => d.bytes.getD i 0) = some v.handler := by
      rw [invocation, if_neg hf] at hinv
      obtain ⟨h, hh, rfl⟩ := Option.map_eq_some_iff.mp hinv
      rw [← word_recvfrom s.inbuf h4]
      exact hh
    obtain ⟨ret, t, hhandle⟩ := handle_keeps narrow ntp pb { s with inbuf := recvfrom s.inbuf d.bytes } d.env
      (payload (recvfrom s.inbuf d.bytes) v.len) (setsDevices_of_word hfind hw)
    rw [turn_invoked pb narrow ntp hinv, hhandle, Board.outcome, Board.outcome]

/-- One datagram. -/
theorem outcome_traffic (s : Board F T) (hf : s.fault = false) (t : Traffic Env) :
    (turn (nanopb float) narrow ntp s t.datagram).outcome = t.obey float narrow s.devices := by
  cases t with
  | command c env => exact outcome_command float narrow ntp s hf c env
  | other d h4 hw =>
    rw [Traffic.datagram, outcome_other narrow ntp (nanopb float) s d h4 hw, Board.outcome, hf]
    rfl

theorem run_fault (pb : Nanopb Double) {s : Board F T} (hf : s.fault = true) (ds : List (Datagram Env)) :
    run (turn pb narrow ntp) s ds = s := by
  induction ds with
  | nil => rfl
  | cons d ds ih => rw [run_cons, turn_fault pb narrow ntp d hf, ih]

theorem commands_obeyed (s : Board F T) (ts : List (Traffic Env)) :
    (run (turn (nanopb float) narrow ntp) s (ts.map Traffic.datagram)).outcome =
      s.outcome.bind fun d => ts.foldlM (Traffic.obey float narrow) d := by
  induction ts generalizing s with
  | nil => exact (Option.bind_fun_some s.outcome).symm
  | cons t ts ih =>
    by_cases hf : s.fault = true
    · -- a null driver was dereferenced, and nothing comes after that
      rw [run_fault narrow ntp (nanopb float) hf, Board.outcome, if_pos hf]
      rfl
    · have hf' : s.fault = false := Bool.eq_false_of_not_eq_true hf
      rw [List.map_cons, run_cons, ih, outcome_traffic float narrow ntp s hf' t, Board.outcome, if_neg hf]
      rfl

/-! ## Commands that lost their end -/

/-- The first `n` fields of the message. -/
def Command.upTo (n : Nat) : Command → Command
  | chassisCmd m => chassisCmd (navSpeedFields.upTo n m)
  | chassisDemand m => chassisDemand (chassisDemandConfigFields.upTo n m)
  | chassisConfig m => chassisConfig (chassisConfigFields.upTo n m)

/-- What a configuration that `pb_decode` refuses does to the devices. -/
def refuse (s : Devices F) : Handler → Devices F
  | .initMileageParamCommand => { s with mileage := s.mileage.doInit }
  | _ => s

theorem accepted_cut {α : Type} {fs : Fields} (hfs : fs ∈ boardTables) (view : fs.Msg → α) (m : fs.Msg) {p : List UInt8}
    (hp : p <+: msgBytes fs m) :
    (∃ n, p = msgBytes fs (fs.upTo n m) ∧ accepted (decodeInto fs view p) = some (view (fs.upTo n m))) ∨
      ((∀ n, p ≠ msgBytes fs (fs.upTo n m)) ∧ accepted (decodeInto fs view p) = none) := by
  by_cases h : ∃ n, p = msgBytes fs (fs.upTo n m)
  · obtain ⟨n, rfl⟩ := h
    refine Or.inl ⟨n, rfl, ?_⟩
    rw [decodeInto_msgBytes hfs]
    rfl
  · refine Or.inr ⟨fun n hn => h ⟨n, hn⟩, ?_⟩
    rcases Pb.truncated (boardTables_wf fs hfs) (decodeField_readsFrom fs) (agrees_self fs fs.tags) fs.initZero m hp with
      ⟨n, q, hn, hq⟩ | herror
    · -- the board's tags have no inside
      rw [inTag_nil (boardTables_tags fs hfs) hq, List.append_nil] at hn
      exact absurd ⟨n, hn⟩ h
    · obtain ⟨e, he⟩ := Option.ne_none_iff_exists'.mp herror
      have hdec : (pbDecode fs p).error = some e := he
      rw [accepted, decodeInto, hdec]
      rfl

theorem prefix_body_le {c : Command} {p : List UInt8} (hp : p <+: c.body) : p.length ≤ 1020 :=
  Nat.le_trans hp.length_le c.body_length_le

theorem cut_config {s : Board F T} (hf : s.fault = false) {c : Command} (hc : c.handler ≠ .chassisCommand) {p : List UInt8}
    (hp : p <+: c.body) (env : Env) :
    (∃ n, p = (c.upTo n).body ∧
        (turn (nanopb float) narrow ntp s (wireDatagram c.word p (prefix_body_le hp) env)).outcome =
          obey float narrow s.devices (c.upTo n)) ∨
      ((∀ n, p ≠ (c.upTo n).body) ∧
        (turn (nanopb float) narrow ntp s (wireDatagram c.word p (prefix_body_le hp) env)).outcome =
          some (refuse s.devices c.handler)) := by
  rw [turn_wireDatagram (nanopb float) narrow ntp hf c.word_lt c.findHandler_word]
  cases c with
  | chassisCmd m => exact absurd rfl hc
  | chassisDemand m =>
    simp only [Command.handler, handle, nanopb]
    rcases accepted_cut (by decide) chassisDemandConfigOf m hp with ⟨n, rfl, hacc⟩ | ⟨hne, hacc⟩
    · refine Or.inl ⟨n, rfl, ?_⟩
      rw [hacc]
      simp [Board.outcome, obey, Command.upTo, hf]
    · refine Or.inr ⟨hne, ?_⟩
      rw [hacc]
      simp [Board.outcome, refuse, configChassisTypeFunc, hf]
  | chassisConfig m =>
    simp only [Command.handler, handle, nanopb]
    rcases accepted_cut (by decide) (chassisConfigOf float) m hp with ⟨n, rfl, hacc⟩ | ⟨hne, hacc⟩
    · refine Or.inl ⟨n, rfl, ?_⟩
      rw [hacc]
      simp only [Command.upTo, obey]
      cases initializeParam s.devices (some (chassisConfigOf float (chassisConfigFields.upTo n m))) with
      | none => rfl
      | some r => simp [Board.outcome, hf]
    · refine Or.inr ⟨hne, ?_⟩
      rw [hacc]
      simp [Board.outcome, refuse, initializeParam, initializeParamBy, hf]

end Runs

/-- Chassis type 3 with brand 2. -/
def demandMsg : chassisDemandConfigFields.Msg := (20, 0, 0, 0, 0, 0, 0, 0, 3, 2, ())

def quietSntp : Sntp Unit Unit := ⟨fun t _ => (0, t), fun t _ _ _ => t⟩

def bareBoard : Board ℚ Unit := (powerUp (fun _ => 0) 0 0 (fun _ => 0) (fun _ => .null) 0 ()).board

/-- Cut in front of the brand, which is then 0. -/
theorem cut_config_brand :
    (∃ n, [0x08, 20, 0x48, 3] = ((Command.chassisDemand demandMsg).upTo n).body ∧
        (turn (nanopb fun _ => 0) (fun _ => 0) quietSntp bareBoard
          (wireDatagram 0xA004 [0x08, 20, 0x48, 3] (by decide) ())).outcome =
          obey (fun _ => 0) (fun _ => 0) bareBoard.devices ((Command.chassisDemand demandMsg).upTo n)) ∨
      ((∀ n, [0x08, 20, 0x48, 3] ≠ ((Command.chassisDemand demandMsg).upTo n).body) ∧
        (turn (nanopb fun _ => 0) (fun _ => 0) quietSntp bareBoard
          (wireDatagram 0xA004 [0x08, 20, 0x48, 3] (by decide) ())).outcome =
          some (refuse bareBoard.devices .configChassisType)) := by
  have hbody : (Command.chassisDemand demandMsg).body = [0x08, 20, 0x48, 3, 0x50, 2] := by decide
  exact cut_config (fun _ => 0) (fun _ => 0) quietSntp (show bareBoard.fault = false from rfl)
    (show (Command.chassisDemand demandMsg).handler ≠ .chassisCommand by decide) (hbody ▸ ⟨[0x50, 2], rfl⟩) ()

end SeerDIOBoard.Dispatch
