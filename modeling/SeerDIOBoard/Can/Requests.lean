/-
  SeerDIOBoard.Can.Requests — the frames the built drivers send (`encode`,
  DriverProtocol/ProtocolCopleyCAN.cxx and ProtocolJingZhiCanopen.cxx), and the replies a
  drive sends to them.

  The frames are expedited CANopen SDO requests: a write (0x23) with a value in bytes 4 to
  7, or a read (0x40). `sdoServer` is a drive that answers them by the book, and
  `request_reply` says that `decode` takes each answer for the command that was sent, with
  the drive's value in it.

  Of the two `encode`s only the object of the speed command differs, and in CopleyCAN it
  is another one in position mode.
-/

import SeerDIOBoard.Lib.Bytes
import SeerDIOBoard.Can.Driver

namespace SeerDIOBoard.Can

open Lib.Bytes

/-! ## Frames sent -/

/-- A frame on its way out. The id is that of the motor, if it has one. -/
structure CanTxMsg where
  chId : Option Nat
  chExtid : Nat
  chRtr : Nat
  chDlc : Nat
  cmData : Nat → UInt8

/-- `l` written into `data` from index `i` on. -/
def setBytes (data : Nat → UInt8) (i : Nat) (l : List UInt8) (j : Nat) : UInt8 :=
  if i ≤ j ∧ j < i + l.length then l.getD (j - i) 0 else data j

/-- `encode`, given the first four bytes of its speed command. -/
def encodeWith (speedHead : List UInt8) (ct : MotorDriverCmdType) (val : Int) (data : Nat → UInt8) : Nat → UInt8 :=
  match ct with
  | .targetSpeed => setBytes (setBytes data 0 speedHead) 4 (leBytes 4 val)
  | .acturalPos => setBytes data 0 [0x40, 0x64, 0x60, 0, 0, 0, 0, 0]
  | .driState => setBytes data 0 [0x40, 0x02, 0x10, 0, 0, 0, 0, 0]
  | _ => data

def CProtocolCopleyCAN.encode (ctrlMode : CtrlModeEnum) (ct : MotorDriverCmdType) (val : Int) (data : Nat → UInt8) :
    Nat → UInt8 :=
  match ctrlMode with
  | .speedMode => encodeWith [0x23, 0x41, 0x23, 0x00] ct val data
  | .positionMode => encodeWith [0x23, 0xff, 0x60, 0x00] ct val data

def CProtocolJingZhiCanopen.encode (ct : MotorDriverCmdType) (val : Int) (data : Nat → UInt8) : Nat → UInt8 :=
  encodeWith [0x23, 0x41, 0x23, 0x00] ct val data

/-- `encode` of a driver object, into the frame it is given. -/
def CDriverCanProtocol.encode (d : CDriverCanProtocol) (motorIdx : Nat) (ct : MotorDriverCmdType) (val : Int)
    (msg : CanTxMsg) : CanTxMsg where
  chId := d.motorRxId motorIdx
  chExtid := 1
  chRtr := 1
  chDlc := 8
  cmData :=
    match d.cls with
    | .copleyCAN ctrlMode => CProtocolCopleyCAN.encode ctrlMode ct val msg.cmData
    | .jingZhiCanopen _ => CProtocolJingZhiCanopen.encode ct val msg.cmData

/-! ## A drive -/

def bytesOf (l : List UInt8) (i : Nat) : UInt8 := l.getD i 0

/-- An expedited SDO server, answering with `id`; `x` is what the object read holds. -/
def sdoServer (id : Nat) (x : UInt32) (req : Nat → UInt8) : Option CanMsg :=
  if req 0 = 0x23 then some { chId := id, cmData := bytesOf [0x60, req 1, req 2, req 3, 0, 0, 0, 0] }
  else if req 0 = 0x40 then some { chId := id, cmData := bytesOf ([0x43, req 1, req 2, req 3] ++ leBytes 4 x.toNat) }
  else none

/-! ## The loop of `decode` -/

/-- Byte by byte into the top of the accumulator. -/
theorem matchReply_copy (pat : List UInt8) (data : Nat → UInt8) :
    matchReply pat data 4 4 0 = (true, littleEndian [data 4, data 5, data 6, data 7]) := by
  have h4 := (data 4).toNat_lt
  have h5 := (data 5).toNat_lt
  have h6 := (data 6).toNat_lt
  have h7 := (data 7).toNat_lt
  simp [matchReply, littleEndian]
  omega

/-- The frame starts with the first four bytes of the pattern. -/
def Head (pat : List UInt8) (data : Nat → UInt8) : Prop := ∀ i, i < 4 → pat.getD i 0 = data i

theorem matchReply_step (pat : List UInt8) (data : Nat → UInt8) (k : Nat) {i : Nat} (hi : i < 4) :
    matchReply pat data (k + 1) i 0 =
      if pat.getD i 0 = data i then matchReply pat data k (i + 1) 0 else (false, 0) := by
  have hlow : ¬ 4 ≤ i := by omega
  have hlast : ¬ i = 7 := by omega
  rw [matchReply]
  by_cases hb : pat.getD i 0 = data i
  · rw [if_neg fun h => h.2 hb, if_neg hlow, if_neg hlast, if_pos hb]
  · rw [if_pos ⟨hi, hb⟩, if_neg hb]

/-- A frame with the pattern's head is taken, with the value of its last four bytes. -/
theorem matchReply_of_head {pat : List UInt8} {data : Nat → UInt8} (h : Head pat data) :
    matchReply pat data 8 0 0 = (true, littleEndian [data 4, data 5, data 6, data 7]) := by
  rw [matchReply_step pat data 7 (by decide), if_pos (h 0 (by decide)), matchReply_step pat data 6 (by decide),
    if_pos (h 1 (by decide)), matchReply_step pat data 5 (by decide), if_pos (h 2 (by decide)),
    matchReply_step pat data 4 (by decide), if_pos (h 3 (by decide)), matchReply_copy]

/-- Any other is given up, with the accumulator as it was. -/
theorem matchReply_of_not_head {pat : List UInt8} {data : Nat → UInt8} (h : ¬ Head pat data) :
    matchReply pat data 8 0 0 = (false, 0) := by
  rw [matchReply_step pat data 7 (by decide)]
  split
  case isFalse => rfl
  rw [matchReply_step pat data 6 (by decide)]
  split
  case isFalse => rfl
  rw [matchReply_step pat data 5 (by decide)]
  split
  case isFalse => rfl
  rw [matchReply_step pat data 4 (by decide)]
  split
  case isFalse => rfl
  case isTrue h0 h1 h2 h3 =>
    refine absurd (fun i hi => ?_) h
    obtain rfl | rfl | rfl | rfl : i = 0 ∨ i = 1 ∨ i = 2 ∨ i = 3 := by omega
    · exact h0
    · exact h1
    · exact h2
    · exact h3

/-! ## Requests and replies -/

/-- `decode` of the answer, where the drive answers. -/
def CDriverCanProtocol.decodeAnswer (d : CDriverCanProtocol) (val : Int) (answer : Option CanMsg) : Option Decoded :=
  answer.map (d.decode val)

theorem decodeWith_pos {acks : List (List UInt8)} {pos err : List UInt8} {msg : CanMsg} (val : Int)
    (hack : (acks.any fun pat => memcmp8 pat msg.cmData) = false) (hpos : Head pos msg.cmData) :
    decodeWith acks pos err val msg =
      ⟨true, .acturalPos, toInt32 (littleEndian [msg.cmData 4, msg.cmData 5, msg.cmData 6, msg.cmData 7])⟩ := by
  unfold decodeWith
  rw [if_neg (by rw [hack]; exact Bool.false_ne_true), matchReply_of_head hpos]
  rfl

theorem decodeWith_err {acks : List (List UInt8)} {pos err : List UInt8} {msg : CanMsg} (val : Int)
    (hack : (acks.any fun pat => memcmp8 pat msg.cmData) = false) (hpos : ¬ Head pos msg.cmData)
    (herr : Head err msg.cmData) :
    decodeWith acks pos err val msg =
      ⟨false, .driState, toInt32 (littleEndian [msg.cmData 4, msg.cmData 5, msg.cmData 6, msg.cmData 7])⟩ := by
  unfold decodeWith
  rw [if_neg (by rw [hack]; exact Bool.false_ne_true), matchReply_of_not_head hpos]
  dsimp only
  rw [if_neg Bool.false_ne_true, matchReply_of_head herr]
  rfl

theorem decodeWith_other {acks : List (List UInt8)} {pos err : List UInt8} {msg : CanMsg} (val : Int)
    (hack : (acks.any fun pat => memcmp8 pat msg.cmData) = false) (hpos : ¬ Head pos msg.cmData)
    (herr : ¬ Head err msg.cmData) : decodeWith acks pos err val msg = ⟨true, .undefined, val⟩ := by
  unfold decodeWith
  rw [if_neg (by rw [hack]; exact Bool.false_ne_true), matchReply_of_not_head hpos]
  dsimp only
  rw [if_neg Bool.false_ne_true, matchReply_of_not_head herr, if_neg Bool.false_ne_true]

theorem littleEndian_word (x : UInt32) : littleEndian (leBytes 4 x.toNat) = x.toNat := by
  have hx := x.toNat_lt
  have hle := littleEndian_leBytes 4 x.toNat
  have hmod : (x.toNat : Int) % 2 ^ (8 * 4) = x.toNat := Int.emod_eq_of_lt (Int.natCast_nonneg _) (by omega)
  rw [hmod] at hle
  exact Int.ofNat_inj.mp hle

/-- The answer to a read starts with 0x43, so it is no acknowledgement. -/
theorem not_ack (acks : List (List UInt8)) (hacks : ∀ pat ∈ acks, pat.getD 0 0 = 0x60) {data : Nat → UInt8}
    (h : data 0 = 0x43) : (acks.any fun pat => memcmp8 pat data) = false := by
  rw [List.any_eq_false]
  intro pat hpat hcmp
  have h0 := List.all_eq_true.mp hcmp 0 (by decide)
  rw [hacks pat hpat, h] at h0
  exact absurd h0 (by decide)

/-- The answer to a read of the position. -/
theorem decodeWith_pos_answer (acks : List (List UInt8)) (hacks : ∀ pat ∈ acks, pat.getD 0 0 = 0x60) (err : List UInt8)
    (id : Nat) (x : UInt32) (val : Int) :
    decodeWith acks [0x43, 0x64, 0x60, 0x00] err val
        { chId := id, cmData := bytesOf ([0x43, 0x64, 0x60, 0x00] ++ leBytes 4 x.toNat) } =
      ⟨true, .acturalPos, toInt32 x.toNat⟩ := by
  rw [decodeWith_pos val (not_ack acks hacks rfl)]
  · show Decoded.mk true .acturalPos (toInt32 (littleEndian (leBytes 4 x.toNat))) = _
    rw [littleEndian_word]
  · intro i hi
    obtain rfl | rfl | rfl | rfl : i = 0 ∨ i = 1 ∨ i = 2 ∨ i = 3 := by omega
    all_goals rfl

/-- The answer to a read of the error code. -/
theorem decodeWith_err_answer (acks : List (List UInt8)) (hacks : ∀ pat ∈ acks, pat.getD 0 0 = 0x60)
    (id : Nat) (x : UInt32) (val : Int) :
    decodeWith acks [0x43, 0x64, 0x60, 0x00] [0x43, 0x02, 0x10, 0x00] val
        { chId := id, cmData := bytesOf ([0x43, 0x02, 0x10, 0x00] ++ leBytes 4 x.toNat) } =
      ⟨false, .driState, toInt32 x.toNat⟩ := by
  rw [decodeWith_err val (not_ack acks hacks rfl)]
  · show Decoded.mk false .driState (toInt32 (littleEndian (leBytes 4 x.toNat))) = _
    rw [littleEndian_word]
  · intro h
    have h1 : (0x64 : UInt8) = 0x02 := h 1 (by decide)
    exact absurd h1 (by decide)
  · intro i hi
    obtain rfl | rfl | rfl | rfl : i = 0 ∨ i = 1 ∨ i = 2 ∨ i = 3 := by omega
    all_goals rfl

/-- Both `decode`s know the same replies to reads, and their acknowledgements start with 0x60. -/
theorem CDriverCanProtocol.decode_shape (d : CDriverCanProtocol) :
    ∃ acks : List (List UInt8), (∀ pat ∈ acks, pat.getD 0 0 = 0x60) ∧
      ∀ val msg, d.decode val msg = decodeWith acks [0x43, 0x64, 0x60, 0x00] [0x43, 0x02, 0x10, 0x00] val msg := by
  rcases d with ⟨cls, tx, rx, inv⟩
  rcases cls with mode | mode
  · exact ⟨[CProtocolCopleyCAN.posModeTargetSpeedData, CProtocolCopleyCAN.velModeTargetSpeedData], by decide,
      fun _ _ => rfl⟩
  · exact ⟨[CProtocolJingZhiCanopen.targetSpeedData], by decide, fun _ _ => rfl⟩

theorem CDriverCanProtocol.encode_pos (d : CDriverCanProtocol) (motorIdx : Nat) (v : Int) (msg : CanTxMsg) :
    (d.encode motorIdx .acturalPos v msg).cmData = setBytes msg.cmData 0 [0x40, 0x64, 0x60, 0, 0, 0, 0, 0] := by
  rcases d with ⟨⟨_ | _⟩ | ⟨_ | _⟩, tx, rx, inv⟩
  all_goals rfl

theorem CDriverCanProtocol.encode_state (d : CDriverCanProtocol) (motorIdx : Nat) (v : Int) (msg : CanTxMsg) :
    (d.encode motorIdx .driState v msg).cmData = setBytes msg.cmData 0 [0x40, 0x02, 0x10, 0, 0, 0, 0, 0] := by
  rcases d with ⟨⟨_ | _⟩ | ⟨_ | _⟩, tx, rx, inv⟩
  all_goals rfl

/-- The last four bytes of a speed command. -/
theorem CDriverCanProtocol.encode_speed_bytes (d : CDriverCanProtocol) (motorIdx : Nat) (v : Int) (msg : CanTxMsg) :
    [4, 5, 6, 7].map (d.encode motorIdx .targetSpeed v msg).cmData = leBytes 4 v := by
  rcases d with ⟨⟨_ | _⟩ | ⟨_ | _⟩, tx, rx, inv⟩
  all_goals rfl

/-- A speed command is acknowledged with a pattern that `decode` knows. -/
theorem CDriverCanProtocol.decode_speed_answer (d : CDriverCanProtocol) (motorIdx : Nat) (v : Int) (x : UInt32) (id : Nat)
    (val : Int) (msg : CanTxMsg) :
    d.decodeAnswer val (sdoServer id x (d.encode motorIdx .targetSpeed v msg).cmData) =
      some ⟨true, .targetSpeed, val⟩ := by
  rcases d with ⟨⟨_ | _⟩ | ⟨_ | _⟩, tx, rx, inv⟩
  all_goals rfl

theorem request_reply (d : CDriverCanProtocol) (motorIdx : Nat) (v : Int) (x : UInt32) (id : Nat) (val : Int)
    (msg : CanTxMsg) :
    d.decodeAnswer val (sdoServer id x (d.encode motorIdx .targetSpeed v msg).cmData) = some ⟨true, .targetSpeed, val⟩ ∧
      d.decodeAnswer val (sdoServer id x (d.encode motorIdx .acturalPos v msg).cmData) =
        some ⟨true, .acturalPos, toInt32 x.toNat⟩ ∧
      d.decodeAnswer val (sdoServer id x (d.encode motorIdx .driState v msg).cmData) =
        some ⟨false, .driState, toInt32 x.toNat⟩ ∧
      (littleEndian ([4, 5, 6, 7].map (d.encode motorIdx .targetSpeed v msg).cmData) : Int) = v % 2 ^ 32 := by
  obtain ⟨acks, hacks, hdec⟩ := d.decode_shape
  refine ⟨d.decode_speed_answer motorIdx v x id val msg, ?_, ?_, ?_⟩
  · rw [d.encode_pos]
    refine congrArg some ((hdec val _).trans ?_)
    exact decodeWith_pos_answer acks hacks [0x43, 0x02, 0x10, 0x00] id x val
  · rw [d.encode_state]
    refine congrArg some ((hdec val _).trans ?_)
    exact decodeWith_err_answer acks hacks id x val
  · rw [d.encode_speed_bytes]
    exact littleEndian_leBytes 4 v

end SeerDIOBoard.Can
