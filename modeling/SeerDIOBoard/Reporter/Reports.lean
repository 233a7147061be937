/-
  SeerDIOBoard.Reporter.Reports — the bytes of the reports (`report` of `CMileage`,
  `CGyroDevice` and `CDIODevice`, down to `transBuff_` and `sendto`).

  The steps are those of `Buffer`, and beside them `Uplink` has the bytes: the word and the
  encoded message go into the 300 bytes that all share, `pbMsgLen` is what the encoder has
  counted, and `sendto` takes that many bytes and four. What a call fills its message with
  (`Reading`) is the caller's: the odometer's is what `CMileage::report` makes of its object,
  with `double` the rounding to a `double`; the DIO's is always the same.

  `datagrams_decode`: in the runs where the mutex is not initialised under a reporter, the
  datagrams are those of `Buffer`, no encoder runs out of room, nothing an earlier report
  left in the buffer is sent, and the host decodes the message that was reported.
-/

import SeerDIOBoard.Pb.Messages
import SeerDIOBoard.Reporter.Buffer
import SeerDIOBoard.Reporter.Odometer

namespace SeerDIOBoard.Reporter

open Function (update)
open Lib.Bytes Lib.Machine
open SeerDIOBoard.Mileage SeerDIOBoard.Pb

/-! ## The messages -/

/-- The messages that `CMileage::report` fills. -/
def Filled : Type := { o : Odometer // ∃ ar s c, o = (report ar s c).1 }

theorem encoder_le (o : Filled) : o.1.encoder.length ≤ 4 := by
  obtain ⟨o, ar, s, c, rfl⟩ := o
  have hlen : (report ar s c).1.encoder.length = c.mileage.numOfWheel := by
    simp only [report, apply_ite Prod.fst, apply_ite Odometer.encoder, ite_self, List.length_map, List.length_range]
  rw [hlen]
  exact numOfWheel_le c.mileage.chassisType

/-- `pbMsg` of `CMileage::report`. -/
def odometerMessage (double : ℚ → Double) (o : Filled) : MessageOdometer where
  header := { pubNsec := 0, dataNsec := o.1.dataNsec.toBitVec }
  cycle := BitVec.ofNat 32 o.1.cycle
  x := double o.1.x
  y := double o.1.y
  angle := double o.1.angle
  isStop := o.1.isStop
  velX := double o.1.velX
  velY := double o.1.velY
  velRotate := double o.1.velRotate
  encoder := { items := o.1.encoder.map (BitVec.ofInt 32), items_le := by rw [List.length_map]; exact encoder_le o }
  steerAngle := double o.1.steerAngle
  spinAngle := double o.1.spinAngle

/-- `pbMsg` of `CDIODevice::report`: 21 degrees, 3.3 volts. -/
def dioMessage : MessageController where
  temp := 0x4035000000000000
  humi := 0
  voltage := 0x400A666666666666
  emc := false
  brake := false
  driverEmc := false
  manualCharge := false
  autoCharge := false
  electric := false

namespace Instance

/-- The word in front, of `CReportData`. -/
def reportData : Instance → Nat
  | odometer => 0
  | gyro => 4
  | dio => 8

def fields : Instance → Fields
  | odometer => odometerFields
  | gyro => imuFields
  | dio => controllerFields

/-- The size in the header. -/
def size : Instance → Nat
  | odometer => odometerSize
  | gyro => imuSize
  | dio => controllerSize

/-- What a call puts into its message. -/
def Reading : Instance → Type
  | odometer => Filled
  | gyro => MessageIMU
  | dio => Unit

def message (double : ℚ → Double) : (i : Instance) → i.Reading → i.fields.Msg
  | odometer, o => (odometerMessage double o).msg
  | gyro, m => m.msg
  | dio, _ => dioMessage.msg

theorem fields_mem (i : Instance) : i.fields ∈ boardTables := by cases i <;> decide

theorem length_message (double : ℚ → Double) (i : Instance) (r : i.Reading) :
    (msgBytes i.fields (i.message double r)).length ≤ i.size := by
  cases i with
  | odometer => exact length_odometer _
  | gyro => exact length_imu _
  | dio => exact length_controller _

theorem size_le (i : Instance) : i.size ≤ 148 := by cases i <;> decide

end Instance

/-! ## The buffer -/

def transBuffLen : Nat := 300

/-- Bytes that go into the buffer at `i`. -/
def overwrite (buf : List UInt8) (i : Nat) (bytes : List UInt8) : List UInt8 :=
  buf.take i ++ bytes ++ buf.drop (i + bytes.length)

/-- What the encoder has left in its part of the buffer. -/
def encoded : Ostream → List UInt8
  | .sizing _ => []
  | .buffer _ written => written

/-- A datagram, with the call it is from. -/
structure Sent where
  who : Instance
  reading : who.Reading
  bytes : List UInt8

structure Uplink where
  reporters : Reporters Instance
  transBuff : List UInt8
  /-- The message of a call, and its `pbMsgLen`. -/
  reading : (i : Instance) → i.Reading
  pbMsgLen : Instance → Nat
  datagrams : List Sent

/-- The next operation of an instance; `reading` goes into the message, if it fills one. -/
structure Event where
  act : Act Instance
  reading : act.who.Reading

theorem overwrite_length {buf : List UInt8} {i : Nat} {bytes : List UInt8} (h : i + bytes.length ≤ buf.length) :
    (overwrite buf i bytes).length = buf.length := by
  simp only [overwrite, List.length_append, List.length_take, List.length_drop]
  omega

/-- What the buffer holds up to the end of what was written. -/
theorem take_overwrite {buf : List UInt8} {i : Nat} (h : i ≤ buf.length) (bytes : List UInt8) :
    (overwrite buf i bytes).take (i + bytes.length) = buf.take i ++ bytes := by
  have hlen : (buf.take i ++ bytes).length = i + bytes.length := by
    rw [List.length_append, List.length_take, Nat.min_eq_left h]
  rw [overwrite, ← hlen, List.take_left]

/-- Every message has room behind the word. -/
theorem pbEncode_message (double : ℚ → Double) (i : Instance) (r : i.Reading) :
    pbEncode i.fields (i.message double r) (.buffer (transBuffLen - 4) []) =
      (none, .buffer (transBuffLen - 4) (msgBytes i.fields (i.message double r))) := by
  have hlen := i.length_message double r
  have hsize := i.size_le
  exact (pbEncode_buffer_iff i.fields _ _ _).mpr ⟨rfl, show _ ≤ 300 - 4 by omega⟩

namespace Uplink

/-- Whether `upload` gets as far as `sendto`. -/
def sends (r : Reporters Instance) (a : Act Instance) : Bool := decide (0 ≤ r.socketN a.who) || decide (0 ≤ a.socket)

section Steps

variable (double : ℚ → Double)

def writeType (s : Uplink) (i : Instance) : Uplink :=
  { s with transBuff := overwrite s.transBuff 0 (leBytes 4 i.reportData) }

def writeBody (s : Uplink) (i : Instance) (r : i.Reading) : Uplink :=
  let stream := (pbEncode i.fields (i.message double r) (.buffer (transBuffLen - 4) [])).2
  { s with
    transBuff := overwrite s.transBuff 4 (encoded stream)
    reading := update s.reading i r
    pbMsgLen := update s.pbMsgLen i (stream.bytesWritten % 2 ^ 16) }

def upload (s : Uplink) (a : Act Instance) : Uplink :=
  if sends s.reporters a = true then
    { s with datagrams := s.datagrams ++ [⟨a.who, s.reading a.who, s.transBuff.take (s.pbMsgLen a.who + 4)⟩] }
  else s

def bytesStep (s : Uplink) (e : Event) : Uplink :=
  match s.reporters.pc e.act.who with
  | .writeType => s.writeType e.act.who
  | .writeBody => s.writeBody double e.act.who e.reading
  | .upload => s.upload e.act
  | .idle | .mutexInit | .mutexLock | .mutexUnlock => s

def step (s : Uplink) (e : Event) : Uplink := { bytesStep double s e with reporters := Reporter.step s.reporters e.act }

end Steps

/-! ## What holds of every state -/

/-- A report as it goes over the line. -/
def frame (double : ℚ → Double) (i : Instance) (r : i.Reading) : List UInt8 :=
  leBytes 4 i.reportData ++ msgBytes i.fields (i.message double r)

/-- Who has written the word or the body finds it in the buffer, and every datagram is the
    report of its call. -/
structure Sound (double : ℚ → Double) (s : Uplink) : Prop where
  mutex : Lib.Mutex.Inv (Reporter.mutex s.reporters)
  owned : Owned s.reporters
  length : s.transBuff.length = transBuffLen
  word : ∀ i, s.reporters.pc i = .writeBody → s.transBuff.take 4 = leBytes 4 i.reportData
  body : ∀ i, s.reporters.pc i = .upload → s.transBuff.take (s.pbMsgLen i + 4) = frame double i (s.reading i)
  frames : ∀ d, d ∈ s.datagrams → d.bytes = frame double d.who d.reading
  sent : s.reporters.sent = s.datagrams.map fun d => (some d.who, some d.who)

/-- Who has the word in the buffer before a step that leaves the buffer alone. -/
theorem sound_of_bytes {double : ℚ → Double} {s : Uplink} (h : Sound double s) {r : Reporters Instance}
    (hm : Lib.Mutex.Inv (Reporter.mutex r)) (ho : Owned r)
    (hpc : ∀ i, r.pc i = .writeBody ∨ r.pc i = .upload → r.pc i = s.reporters.pc i) (hsent : r.sent = s.reporters.sent) :
    Sound double { s with reporters := r } where
  mutex := hm
  owned := ho
  length := h.length
  word i hi := h.word i ((hpc i (Or.inl hi)).symm.trans hi)
  body i hi := h.body i ((hpc i (Or.inr hi)).symm.trans hi)
  frames := h.frames
  sent := hsent.trans h.sent

theorem pc_step_ne {ι : Type} [DecidableEq ι] (s : Reporters ι) (e : Act ι) {j : ι} (h : j ≠ e.who) :
    (Reporter.step s e).pc j = s.pc j := by
  have hgoto : ∀ (t : Reporters ι) pc, (goto t e.who pc).pc j = t.pc j := fun t pc => by
    simp only [goto, Function.update_of_ne h]
  unfold Reporter.step
  cases s.pc e.who with
  | mutexLock =>
    rw [stepAt]
    split
    · rfl
    · exact hgoto _ _
  | upload => exact (hgoto _ _).trans (congrFun (upload_frame s e.who e.socket).1 j)
  | idle | mutexInit | writeType | writeBody | mutexUnlock => exact hgoto _ _

/-- While one is inside, who has something in the buffer after its step is that one. -/
theorem who_of_inside {ι : Type} [DecidableEq ι] {s : Reporters ι} (h : Lib.Mutex.Inv (Reporter.mutex s)) {e : Act ι}
    (hi : (s.pc e.who).inside = true) {j : ι} (hj : ((Reporter.step s e).pc j).inside = true) : j = e.who := by
  by_cases hne : j = e.who
  · exact hne
  · rw [pc_step_ne s e hne] at hj
    exact h.excl j e.who hj hi

/-- The operations that do not touch the buffer. -/
def quiet : Pc → Bool
  | .idle | .mutexInit | .mutexLock | .mutexUnlock => true
  | .writeType | .writeBody | .upload => false

theorem quiet_step {ι : Type} [DecidableEq ι] {s : Reporters ι} {e : Act ι} (h : quiet (s.pc e.who) = true) :
    (Reporter.step s e).sent = s.sent ∧ (Reporter.step s e).pc e.who ≠ .writeBody ∧
      (Reporter.step s e).pc e.who ≠ .upload := by
  have hgoto : ∀ (t : Reporters ι) pc, (goto t e.who pc).pc e.who = pc := fun t pc => by
    simp only [goto, Function.update_self]
  unfold Reporter.step
  cases hpc : s.pc e.who with
  | idle =>
    rw [stepAt, hgoto]
    refine ⟨rfl, ?_⟩
    split <;> simp
  | mutexInit =>
    rw [stepAt, hgoto]
    exact ⟨rfl, by simp⟩
  | mutexLock =>
    rw [stepAt]
    split
    · rw [hpc]
      exact ⟨rfl, by simp⟩
    · rw [hgoto]
      exact ⟨rfl, by simp⟩
  | mutexUnlock =>
    rw [stepAt, hgoto]
    exact ⟨rfl, by simp⟩
  | writeType | writeBody | upload =>
    rw [hpc] at h
    cases h

theorem sent_upload {ι : Type} [DecidableEq ι] {s : Reporters ι} {e : Act ι} (hpc : s.pc e.who = .upload) :
    (Reporter.step s e).sent =
      if 0 ≤ s.socketN e.who ∨ 0 ≤ e.socket then s.sent ++ [(s.typeOf, s.bodyOf)] else s.sent := by
  rw [Reporter.step, hpc, stepAt]
  show (Reporter.upload s e.who e.socket).sent = _
  unfold Reporter.upload
  by_cases hown : s.socketN e.who < 0
  · rw [if_pos hown]
    dsimp only
    by_cases hnew : e.socket < 0
    · rw [if_pos hnew, if_neg (by omega)]
    · rw [if_neg hnew, if_pos (by omega)]
  · rw [if_neg hown, if_pos (by omega)]

/-- The one that writes the word. -/
theorem sound_writeType {double : ℚ → Double} {s : Uplink} (h : Sound double s) {a : Act Instance}
    (hm : Lib.Mutex.Inv (Reporter.mutex (Reporter.step s.reporters a))) (ho : Owned (Reporter.step s.reporters a))
    (hpc : s.reporters.pc a.who = .writeType) :
    Sound double { s.writeType a.who with reporters := Reporter.step s.reporters a } := by
  have hinside : (s.reporters.pc a.who).inside = true := by rw [hpc]; rfl
  have hnext : (Reporter.step s.reporters a).pc a.who = .writeBody := by
    rw [Reporter.step, hpc, stepAt]
    simp only [goto, Function.update_self]
  have hlen : 0 + (leBytes 4 a.who.reportData).length ≤ s.transBuff.length := by
    rw [h.length, leBytes_length]
    decide
  refine ⟨hm, ho, (overwrite_length hlen).trans h.length, ?_, ?_, h.frames, ?_⟩
  · intro i hi
    obtain rfl := who_of_inside h.mutex hinside (inside_of_written (Or.inl hi))
    have htake := take_overwrite (Nat.zero_le s.transBuff.length) (leBytes 4 a.who.reportData)
    rw [leBytes_length] at htake
    exact htake
  · intro i hi
    obtain rfl := who_of_inside h.mutex hinside (inside_of_written (Or.inr hi))
    rw [hnext] at hi
    cases hi
  · rw [Reporter.step, hpc]
    exact h.sent

/-- The one that encodes its message. -/
theorem sound_writeBody {double : ℚ → Double} {s : Uplink} (h : Sound double s) {a : Act Instance} (r : a.who.Reading)
    (hm : Lib.Mutex.Inv (Reporter.mutex (Reporter.step s.reporters a))) (ho : Owned (Reporter.step s.reporters a))
    (hpc : s.reporters.pc a.who = .writeBody) :
    Sound double { s.writeBody double a.who r with reporters := Reporter.step s.reporters a } := by
  have hinside : (s.reporters.pc a.who).inside = true := by rw [hpc]; rfl
  have hnext : (Reporter.step s.reporters a).pc a.who = .upload := by
    rw [Reporter.step, hpc, stepAt]
    simp only [goto, Function.update_self]
  have hroom : (msgBytes a.who.fields (a.who.message double r)).length ≤ 148 :=
    Nat.le_trans (a.who.length_message double r) a.who.size_le
  have hbuff : s.transBuff.length = 300 := h.length
  unfold writeBody
  rw [pbEncode_message]
  dsimp only [encoded, Ostream.bytesWritten]
  refine ⟨hm, ho, (overwrite_length (by omega)).trans h.length, ?_, ?_, h.frames, ?_⟩
  · intro i hi
    obtain rfl := who_of_inside h.mutex hinside (inside_of_written (Or.inl hi))
    rw [hnext] at hi
    cases hi
  · intro i hi
    obtain rfl := who_of_inside h.mutex hinside (inside_of_written (Or.inr hi))
    dsimp only
    rw [Function.update_self, Function.update_self, Nat.mod_eq_of_lt (by omega), Nat.add_comm,
      take_overwrite (by omega), h.word a.who hpc, frame]
  · rw [Reporter.step, hpc]
    exact h.sent

/-- The one that sends. -/
theorem sound_upload {double : ℚ → Double} {s : Uplink} (h : Sound double s) {a : Act Instance}
    (hm : Lib.Mutex.Inv (Reporter.mutex (Reporter.step s.reporters a))) (ho : Owned (Reporter.step s.reporters a))
    (hpc : s.reporters.pc a.who = .upload) :
    Sound double { s.upload a with reporters := Reporter.step s.reporters a } := by
  have hinside : (s.reporters.pc a.who).inside = true := by rw [hpc]; rfl
  have hnext : (Reporter.step s.reporters a).pc a.who = .mutexUnlock := by
    rw [Reporter.step, hpc, stepAt]
    simp only [goto, Function.update_self]
  have hnone : ∀ i, ¬ ((Reporter.step s.reporters a).pc i = .writeBody ∨ (Reporter.step s.reporters a).pc i = .upload) := by
    intro i hi
    obtain rfl := who_of_inside h.mutex hinside (inside_of_written hi)
    rw [hnext] at hi
    simp at hi
  have hlast := sent_upload hpc
  rw [h.owned.typeOf a.who (Or.inr hpc), h.owned.bodyOf a.who hpc, h.sent] at hlast
  unfold upload
  by_cases hsends : sends s.reporters a = true
  · rw [if_pos hsends]
    refine ⟨hm, ho, h.length, fun i hi => absurd (Or.inl hi) (hnone i), fun i hi => absurd (Or.inr hi) (hnone i), ?_, ?_⟩
    · intro d hd
      rcases List.mem_append.mp hd with hd | hd
      · exact h.frames d hd
      · obtain rfl := List.mem_singleton.mp hd
        exact h.body a.who hpc
    · rw [sends, Bool.or_eq_true, decide_eq_true_eq, decide_eq_true_eq] at hsends
      rw [hlast, if_pos hsends, List.map_append]
      rfl
  · rw [if_neg hsends]
    refine ⟨hm, ho, h.length, fun i hi => absurd (Or.inl hi) (hnone i), fun i hi => absurd (Or.inr hi) (hnone i), h.frames, ?_⟩
    rw [sends, Bool.or_eq_true, decide_eq_true_eq, decide_eq_true_eq] at hsends
    rw [hlast, if_neg hsends]

theorem sound_step {double : ℚ → Double} {s : Uplink} (h : Sound double s) {e : Event} (he : NoReinit s.reporters e.act) :
    Sound double (step double s e) := by
  have hm := mutex_inv_step h.mutex he
  have ho : Owned (Reporter.step s.reporters e.act) := owned_step h.mutex h.owned
  obtain ⟨a, r⟩ := e
  by_cases hq : quiet (s.reporters.pc a.who) = true
  · obtain ⟨hsent, hbody, hupload⟩ := quiet_step hq
    have hsame : bytesStep double s ⟨a, r⟩ = s := by
      unfold bytesStep
      revert hq
      cases s.reporters.pc a.who <;> simp [quiet]
    rw [step, hsame]
    refine sound_of_bytes h hm ho ?_ hsent
    intro i hi
    by_cases hne : i = a.who
    · subst hne
      rcases hi with hi | hi
      · exact absurd hi hbody
      · exact absurd hi hupload
    · exact pc_step_ne s.reporters a hne
  unfold step bytesStep
  cases hpc : s.reporters.pc a.who with
  | writeType => exact sound_writeType h hm ho hpc
  | writeBody => exact sound_writeBody h r hm ho hpc
  | upload => exact sound_upload h hm ho hpc
  | idle | mutexInit | mutexLock | mutexUnlock =>
    rw [hpc] at hq
    exact absurd rfl hq

/-! ## Runs -/

/-- Before the first report. What is in the buffer and in the locals does not matter. -/
def start (reporterMut : Bool) (transBuff : List UInt8) (reading : (i : Instance) → i.Reading) (pbMsgLen : Instance → Nat) :
    Uplink where
  reporters := Reporter.start reporterMut
  transBuff := transBuff
  reading := reading
  pbMsgLen := pbMsgLen
  datagrams := []

theorem sound_start (double : ℚ → Double) (reporterMut : Bool) {transBuff : List UInt8}
    (hlen : transBuff.length = transBuffLen) (reading : (i : Instance) → i.Reading) (pbMsgLen : Instance → Nat) :
    Sound double (start reporterMut transBuff reading pbMsgLen) where
  mutex := Lib.Mutex.inv_of_free fun _ => rfl
  owned := ⟨by simp [start, Reporter.start], by simp [start, Reporter.start], by simp [Whole, start, Reporter.start]⟩
  length := hlen
  word i hi := by cases hi
  body i hi := by cases hi
  frames d hd := by cases hd
  sent := rfl

theorem datagrams_decode (double : ℚ → Double) (reporterMut : Bool) {transBuff : List UInt8}
    (hlen : transBuff.length = transBuffLen) (reading : (i : Instance) → i.Reading) (pbMsgLen : Instance → Nat)
    (es : List Event)
    (h : Along Reporter.step NoReinit (Reporter.start reporterMut) (es.map Event.act)) :
    (run (step double) (start reporterMut transBuff reading pbMsgLen) es).reporters.sent =
        (run (step double) (start reporterMut transBuff reading pbMsgLen) es).datagrams.map
          (fun d => (some d.who, some d.who)) ∧
      ∀ d, d ∈ (run (step double) (start reporterMut transBuff reading pbMsgLen) es).datagrams →
        d.bytes = frame double d.who d.reading ∧ d.bytes.length ≤ 4 + d.who.size ∧
          d.bytes.take 4 = leBytes 4 d.who.reportData ∧
          pbDecode d.who.fields (d.bytes.drop 4) = ⟨d.who.message double d.reading, none, []⟩ := by
  have hsound := inv_run (I := Sound double) (fun s e hs he => sound_step hs he) es _
    (sound_start double reporterMut hlen reading pbMsgLen) ((along_image reporters Event.act (fun _ _ => rfl) es _).mpr h)
  refine ⟨hsound.sent, ?_⟩
  intro d hd
  have hframe := hsound.frames d hd
  have hword : (leBytes 4 d.who.reportData).length = 4 := leBytes_length 4 _
  refine ⟨hframe, ?_, ?_, ?_⟩
  · rw [hframe, frame, List.length_append, hword]
    exact Nat.add_le_add_left (d.who.length_message double d.reading) 4
  · rw [hframe, frame, List.take_left' hword]
  · rw [hframe, frame, List.drop_left' hword]
    exact pbDecode_board d.who.fields_mem _

/-- What the locals held before. -/
def someReading : (i : Instance) → i.Reading
  | .odometer => ⟨_, CMileage.board, .start 0 0, callAt ⟨1, 0⟩, rfl⟩
  | .gyro => (⟨⟨0, 0⟩, 0, 0, 0, 0, 0, 0, 0, 0, 0, 0, 0, 0⟩ : MessageIMU)
  | .dio => ()

/-- Seven operations of one instance: a report. -/
def reportOf (i : Instance) : List Event := List.replicate 7 ⟨⟨i, 3⟩, someReading i⟩

/-- The odometer, and then the DIO into the buffer that the odometer has used. -/
theorem datagrams_decode_two :
    (run (step fun _ => 0) (start true (List.replicate 300 0xFF) someReading fun _ => 0)
        (reportOf .odometer ++ reportOf .dio)).reporters.sent =
        (run (step fun _ => 0) (start true (List.replicate 300 0xFF) someReading fun _ => 0)
          (reportOf .odometer ++ reportOf .dio)).datagrams.map (fun d => (some d.who, some d.who)) ∧
      ∀ d, d ∈ (run (step fun _ => 0) (start true (List.replicate 300 0xFF) someReading fun _ => 0)
          (reportOf .odometer ++ reportOf .dio)).datagrams →
        d.bytes = frame (fun _ => 0) d.who d.reading ∧ d.bytes.length ≤ 4 + d.who.size ∧
          d.bytes.take 4 = leBytes 4 d.who.reportData ∧
          pbDecode d.who.fields (d.bytes.drop 4) = ⟨d.who.message (fun _ => 0) d.reading, none, []⟩ := by
  refine datagrams_decode (fun _ => 0) true List.length_replicate someReading (fun _ => 0) _ ?_
  simp only [reportOf, List.replicate, List.cons_append, List.nil_append, List.map_cons, List.map_nil, Along]
  refine ⟨?_, ?_, ?_, ?_, ?_, ?_, ?_, ?_, ?_, ?_, ?_, ?_, ?_, ?_, trivial⟩
  all_goals
    intro hpc
    first
    | exact absurd hpc (by decide)
    | (intro j; cases j <;> rfl)

end Uplink

end SeerDIOBoard.Reporter
