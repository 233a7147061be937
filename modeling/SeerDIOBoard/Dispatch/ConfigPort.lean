/-
  SeerDIOBoard.Dispatch.ConfigPort — the server of the config port (`task_config`,
  src/task_config.cxx), and what its answer to a datagram depends on.

  Both `_configBuffer` and the report `crd` live on between datagrams. The report is reset
  for each of them; the buffer is not, and two commands read the word behind the command
  without a look at how much was received: the keep-alive, whose answer carries a 1 when
  that word is 0xFFFFFFFF, and the gyro calibration, which is done then.

  `historyIndependent_iff`: the answer is the same after any two histories exactly when
  the datagram brings its whole word, or the command does not read it, or the part of it
  that was brought decides.

  Constant while the board runs, and parameters here (`Firmware`): the twelve bytes of the
  chip's id, and what `getFullVersion` leaves in its text. That stands for an undefined read:
  `version.h` hands the characters '2.0.0' to a `%s`. Cases of `doConfig` that are empty, or
  read a word and do nothing with it, are those of its default.
-/

import Mathlib.Data.List.GetD
import SeerDIOBoard.Lib.Machine
import SeerDIOBoard.Dispatch.SpeedCommand

namespace SeerDIOBoard.Dispatch.ConfigPort

open Lib.Machine

/-! ## The report -/

def packetCharLength : Nat := 135

/-! `CConfigData::configType`, as far as the server or the report asks for it. -/

def eGyroCalibration : Nat := 3
def eGetUid : Nat := 11
def eGetMainVersion : Nat := 13
def eGetFullVersion : Nat := 14
def eGetMcuNtpTime : Nat := 20
def eGetGyroVersion : Nat := 21
def eKeepAlive : Nat := 0x200
def eConfigNumMax : Nat := 0xffffffff

/-- `m_buffer` is the whole of the union, `data` its first four bytes. -/
structure CConfigReport where
  configType : Nat
  buffer : List UInt8
  deriving DecidableEq, Repr

def CConfigReport.resetDat (r : CConfigReport) : CConfigReport := { r with buffer := List.replicate packetCharLength 0 }

def CConfigReport.new : CConfigReport := { configType := eConfigNumMax, buffer := List.replicate packetCharLength 0 }

def CConfigReport.size (r : CConfigReport) : Nat :=
  if r.configType = eKeepAlive then 4 + 4
  else if r.configType = eGetUid then 4 + packetCharLength
  else if r.configType = eGetMainVersion then 4 + packetCharLength
  else if r.configType = eGetFullVersion then 4 + packetCharLength
  else if r.configType = eGetMcuNtpTime then 4 + 8
  else if r.configType = eGetGyroVersion then 4 + packetCharLength
  else 4

/-- A byte of a `uint32_t` in memory. -/
def wordByte (x i : Nat) : UInt8 := UInt8.ofNat (x / 2 ^ (8 * i))

/-- The object as it is in memory, the first `size()` bytes of it. -/
def CConfigReport.bytes (r : CConfigReport) : List UInt8 :=
  ((List.range 4).map (wordByte r.configType) ++ r.buffer).take r.size

/-- `memcpy` of `n` bytes to the start of `m_buffer`. -/
def CConfigReport.copy (r : CConfigReport) (src : Nat → UInt8) (n : Nat) : CConfigReport :=
  { r with buffer := (List.range n).map src ++ r.buffer.drop n }

def CConfigReport.setData (r : CConfigReport) (x : Nat) : CConfigReport := r.copy (wordByte x) 4

/-! ## The server -/

structure Firmware where
  uid : Nat → UInt8
  /-- The text of an undefined read. -/
  fullVersion : Nat → UInt8

def sdbVersionLength : Nat := 100

/-- "2.0.0", and zeros behind it. -/
def mainVersion (i : Nat) : UInt8 := [0x32, 0x2e, 0x30, 0x2e, 0x30].getD i 0

structure ConfigTask where
  configBuffer : Nat → UInt8
  crd : CConfigReport

/-- Whether the gyro is open when the datagram is handled. -/
structure GyroState where
  isOpen : Bool

/-- What is sent back, and whether `doCalibration` has been called. -/
structure Answer where
  reply : List UInt8
  calibrated : Bool
  deriving DecidableEq, Repr

/-- The word behind the command. -/
def parameterWord (buf : Nat → UInt8) : Nat := word fun i => buf (4 + i)

def doConfig (fw : Firmware) (buf : Nat → UInt8) (isOpen : Bool) (crd : CConfigReport) : CConfigReport × Bool :=
  let head := word buf
  if head = eKeepAlive then (if parameterWord buf = 0xffffffff then crd.setData 1 else crd, false)
  else if head = eGyroCalibration then
    (crd, if parameterWord buf = 0xffffffff then (if isOpen = true then true else false) else false)
  else if head = eGetUid then (crd.copy fw.uid 12, false)
  else if head = eGetMainVersion then (crd.copy mainVersion sdbVersionLength, false)
  else if head = eGetFullVersion then (crd.copy fw.fullVersion sdbVersionLength, false)
  else (crd, false)

/-- One turn of the loop. -/
def serve (fw : Firmware) (t : ConfigTask) (d : Datagram GyroState) : ConfigTask × Answer :=
  let buf := recvfrom t.configBuffer d.bytes
  let crd := { t.crd.resetDat with configType := word buf }
  let r := doConfig fw buf d.env.isOpen crd
  ({ configBuffer := buf, crd := r.1 }, { reply := r.1.bytes, calibrated := r.2 })

def start : ConfigTask := { configBuffer := fun _ => 0, crd := .new }

/-- The answer to `d` after the datagrams `h`. -/
def answerAfter (fw : Firmware) (h : List (Datagram GyroState)) (d : Datagram GyroState) : Answer :=
  (serve fw (run (fun t d => (serve fw t d).1) start h) d).2

/-! ## What an answer depends on -/

def HistoryIndependent (fw : Firmware) (d : Datagram GyroState) : Prop := ∀ h h', answerAfter fw h d = answerAfter fw h' d

/-- The commands that read the word behind them and act on it. -/
def ReadsWord (head : Nat) (isOpen : Bool) : Prop := head = eKeepAlive ∨ (head = eGyroCalibration ∧ isOpen = true)

/-- The datagram has the word, or its command does not read one, or a byte of the word
    that it has is not FF. -/
def DecidesItself (d : Datagram GyroState) : Prop :=
  8 ≤ d.bytes.length ∨ ¬ ReadsWord (word fun i => d.bytes.getD i 0) d.env.isOpen ∨
    ∃ i, 4 ≤ i ∧ i < 8 ∧ i < d.bytes.length ∧ d.bytes.getD i 0 ≠ 0xff

theorem word_eq_ones (f : Nat → UInt8) : word f = 0xffffffff ↔ ∀ i, i < 4 → f i = 0xff := by
  have h0 := (f 0).toNat_lt
  have h1 := (f 1).toNat_lt
  have h2 := (f 2).toNat_lt
  have h3 := (f 3).toNat_lt
  unfold word
  constructor
  · intro h i hi
    apply UInt8.toNat_inj.mp
    show (f i).toNat = 255
    obtain rfl | rfl | rfl | rfl : i = 0 ∨ i = 1 ∨ i = 2 ∨ i = 3 := by omega
    all_goals omega
  · intro h
    rw [h 0 (by decide), h 1 (by decide), h 2 (by decide), h 3 (by decide)]
    decide

/-- `doConfig` on two buffers that hold the same command, and the same verdict on the word
    where the command reads it. -/
theorem doConfig_congr (fw : Firmware) {buf buf' : Nat → UInt8} {isOpen : Bool} (crd : CConfigReport)
    (hhead : word buf = word buf')
    (hword : ReadsWord (word buf') isOpen → (parameterWord buf = 0xffffffff ↔ parameterWord buf' = 0xffffffff)) :
    doConfig fw buf isOpen crd = doConfig fw buf' isOpen crd := by
  unfold doConfig
  rw [hhead]
  dsimp only
  by_cases hk : word buf' = eKeepAlive
  · rw [if_pos hk, if_pos hk]
    have hiff := hword (.inl hk)
    simp only [hiff]
  rw [if_neg hk, if_neg hk]
  by_cases hg : word buf' = eGyroCalibration
  · rw [if_pos hg, if_pos hg]
    by_cases ho : isOpen = true
    · have hiff := hword (.inr ⟨hg, ho⟩)
      simp only [hiff]
    · simp only [if_neg ho, ite_self]
  rw [if_neg hg, if_neg hg]

/-- The answer given a buffer. -/
def answerFor (fw : Firmware) (buf : Nat → UInt8) (isOpen : Bool) : Answer :=
  let r := doConfig fw buf isOpen { CConfigReport.new with configType := word buf }
  { reply := r.1.bytes, calibrated := r.2 }

/-- Nothing of the report's past is in an answer. -/
theorem serve_eq (fw : Firmware) (t : ConfigTask) (d : Datagram GyroState) :
    (serve fw t d).2 = answerFor fw (recvfrom t.configBuffer d.bytes) d.env.isOpen := rfl

theorem answer_keepAlive (fw : Firmware) {buf : Nat → UInt8} (isOpen : Bool) (h : word buf = eKeepAlive) :
    answerFor fw buf isOpen =
      { reply := [0, 2, 0, 0, if parameterWord buf = 0xffffffff then 1 else 0, 0, 0, 0], calibrated := false } := by
  unfold answerFor doConfig
  rw [h]
  dsimp only
  rw [if_pos rfl]
  split
  · rfl
  · rfl

theorem answer_gyroCalibration (fw : Firmware) {buf : Nat → UInt8} (h : word buf = eGyroCalibration) :
    answerFor fw buf true = { reply := [3, 0, 0, 0], calibrated := decide (parameterWord buf = 0xffffffff) } := by
  unfold answerFor doConfig
  rw [h]
  dsimp only
  rw [if_neg (by decide), if_pos rfl, if_pos rfl]
  split
  case isTrue hones =>
    rw [decide_eq_true hones]
    rfl
  case isFalse hno =>
    rw [decide_eq_false hno]
    rfl

/-! ## The exact condition -/

theorem parameterWord_eq_ones {buf : Nat → UInt8} :
    parameterWord buf = 0xffffffff ↔ ∀ i, 4 ≤ i → i < 8 → buf i = 0xff := by
  unfold parameterWord
  rw [word_eq_ones]
  constructor
  · intro h i h4 h8
    have hi := h (i - 4) (by omega)
    rwa [Nat.add_sub_cancel' h4] at hi
  · intro h i hi
    exact h (4 + i) (by omega) (by omega)

/-- A datagram that decides itself gives every buffer the same verdict on its word. -/
theorem verdict_of_decides {d : Datagram GyroState} (h : DecidesItself d)
    (hread : ReadsWord (word fun i => d.bytes.getD i 0) d.env.isOpen) (inbuf inbuf' : Nat → UInt8)
    (hones : parameterWord (recvfrom inbuf d.bytes) = 0xffffffff) :
    parameterWord (recvfrom inbuf' d.bytes) = 0xffffffff := by
  rw [parameterWord_eq_ones] at hones ⊢
  intro i h4 h8
  rcases h with hlong | hno | ⟨j, hj4, hj8, hjlen, hj⟩
  · have hi := hones i h4 h8
    rw [recvfrom_of_lt _ (by omega)] at hi ⊢
    exact hi
  · exact absurd hread hno
  · -- a byte of its own is not FF
    have hff := hones j hj4 hj8
    rw [recvfrom_of_lt _ hjlen] at hff
    exact absurd hff hj

/-- What the buffer is filled with: a word of ones behind no command. -/
def onesDatagram : Datagram GyroState where
  bytes := [0, 0, 0, 0, 0xff, 0xff, 0xff, 0xff]
  bytes_le := by decide
  env := { isOpen := false }

/-- A short datagram that leaves the verdict to the buffer gets the one of the buffer. -/
theorem verdict_stale {d : Datagram GyroState}
    (hown : ∀ i, 4 ≤ i → i < 8 → i < d.bytes.length → d.bytes.getD i 0 = 0xff) (inbuf : Nat → UInt8) :
    parameterWord (recvfrom inbuf d.bytes) = 0xffffffff ↔ ∀ i, d.bytes.length ≤ i → 4 ≤ i → i < 8 → inbuf i = 0xff := by
  rw [parameterWord_eq_ones]
  constructor
  · intro h i hi h4 h8
    have hff := h i h4 h8
    unfold recvfrom at hff
    rwa [if_neg (by omega)] at hff
  · intro h i h4 h8
    unfold recvfrom
    split
    case isTrue hi => exact hown i h4 h8 hi
    case isFalse hi => exact h i (by omega) h4 h8

/-- Two verdicts on the word make two answers. -/
theorem verdict_of_answer (fw : Firmware) {buf buf' : Nat → UInt8} {isOpen : Bool} (hhead : word buf = word buf')
    (hread : ReadsWord (word buf) isOpen) (heq : answerFor fw buf isOpen = answerFor fw buf' isOpen)
    (hones : parameterWord buf = 0xffffffff) : parameterWord buf' = 0xffffffff := by
  by_contra hno
  rcases hread with hk | ⟨hg, ho⟩
  · rw [answer_keepAlive fw isOpen hk, answer_keepAlive fw isOpen (hhead ▸ hk), if_pos hones, if_neg hno] at heq
    cases heq
  · rw [ho, answer_gyroCalibration fw hg, answer_gyroCalibration fw (hhead ▸ hg), decide_eq_true hones,
      decide_eq_false hno] at heq
    cases heq

theorem historyIndependent_iff (fw : Firmware) (d : Datagram GyroState) (h4 : 4 ≤ d.bytes.length) :
    HistoryIndependent fw d ↔ DecidesItself d := by
  have hhead : ∀ inbuf, word (recvfrom inbuf d.bytes) = word fun i => d.bytes.getD i 0 := fun inbuf => word_recvfrom inbuf h4
  constructor
  · intro hind
    by_contra hnot
    obtain ⟨hlen, hrest⟩ := not_or.mp hnot
    obtain ⟨hread, hbytes⟩ := not_or.mp hrest
    rw [not_not] at hread
    have hown : ∀ i, 4 ≤ i → i < 8 → i < d.bytes.length → d.bytes.getD i 0 = 0xff := by
      intro i hi4 hi8 hi
      by_contra hne
      exact hbytes ⟨i, hi4, hi8, hi, hne⟩
    -- after a word of ones, and at the start, when the buffer is zero
    have hsame := hind [onesDatagram] []
    unfold answerAfter at hsame
    rw [serve_eq, serve_eq] at hsame
    have hfull : parameterWord (recvfrom (serve fw start onesDatagram).1.configBuffer d.bytes) = 0xffffffff := by
      rw [verdict_stale hown]
      intro i _ hi4 hi8
      obtain rfl | rfl | rfl | rfl : i = 4 ∨ i = 5 ∨ i = 6 ∨ i = 7 := by omega
      all_goals rfl
    have hempty := verdict_of_answer fw (by rw [hhead]; exact (hhead _).symm) (by rw [hhead]; exact hread) hsame hfull
    have hzero := (verdict_stale hown _).mp hempty 7 (by omega) (by decide) (by decide)
    cases hzero
  · intro hdec h h'
    unfold answerAfter
    rw [serve_eq, serve_eq]
    unfold answerFor
    rw [hhead, hhead]
    dsimp only
    rw [doConfig_congr fw _ ((hhead _).trans (hhead _).symm)]
    intro hread
    rw [hhead] at hread
    exact ⟨verdict_of_decides hdec hread _ _, verdict_of_decides hdec hread _ _⟩

/-! ## Keep-alives -/

def blankFirmware : Firmware := { uid := fun _ => 0, fullVersion := fun _ => 0 }

def keepAlive : Datagram GyroState where
  bytes := [0, 2, 0, 0, 0xff, 0xff, 0xff, 0xff]
  bytes_le := by decide
  env := { isOpen := false }

theorem historyIndependent_keepAlive : HistoryIndependent blankFirmware keepAlive :=
  (historyIndependent_iff blankFirmware keepAlive (by decide)).mpr (.inl (by decide))

/-- The command alone. -/
def shortKeepAlive : Datagram GyroState where
  bytes := [0, 2, 0, 0]
  bytes_le := by decide
  env := { isOpen := false }

theorem shortKeepAlive_answers_differ : ¬ HistoryIndependent blankFirmware shortKeepAlive := by
  intro h
  exact absurd (h [keepAlive] []) (by decide)

end SeerDIOBoard.Dispatch.ConfigPort
