/-
  SeerDIOBoard.Can.Keya — `CProtocolKeya` (DriverProtocol/ProtocolKeya.cpp), a driver of
  two motors on one CAN id. It is not in the build.

  `encode` puts the motor's place on its drive into byte 3 of a request, 1 for an even
  motor and 2 for an odd one, and the drive answers with the same byte. `getMotorIndex`
  counts the motors with the id of the frame up to that place. The two only fit where the
  motors share their ids in pairs, as the constructor sets them:
  - `replies_attributed`: every reply is attributed to the motor that was asked, just when
    the ids of the motors come in pairs.

  `decode` leaves the type alone on a frame it does not know, so the type is an argument
  of it. The value is that of bytes 4 to 7 in any case.
-/

import SeerDIOBoard.Can.InBandProofs
import SeerDIOBoard.Lib.Rank

namespace SeerDIOBoard.Can

open Function (update)
open Lib.Bytes Lib.Rank Lib.Round SeerDIOBoard.Mileage

structure CProtocolKeya where
  motorTxId : Nat → Nat
  motorRxId : Nat → Nat

namespace CProtocolKeya

/-- The constructor, over what the object's memory holds. -/
def construct (m : CMileage) (d : CProtocolKeya) : CProtocolKeya where
  motorTxId i := if i < m.numOfWheel then 0x581 + i / 2 else d.motorTxId i
  motorRxId i := if i < m.numOfWheel then 0x601 + i / 2 else d.motorRxId i

/-- In exact rationals; the code computes it in `float`. -/
def speedVal (m : CMileage) (val : Int) : Int := trunc ((val : ℚ) * 6 / (4 * m.encoderLines) + 1 / 2)

/-- The place of a motor on its drive. -/
def subIndex (motorIdx : Nat) : Nat := 1 + motorIdx % 2

def encode (m : CMileage) (d : CProtocolKeya) (motorIdx : Nat) (ct : MotorDriverCmdType) (val : Int) (msg : StdTxMsg) :
    StdTxMsg where
  stdId := d.motorRxId motorIdx
  data :=
    let data := update msg.data 3 (UInt8.ofNat (subIndex motorIdx))
    match ct with
    | .targetSpeed => setBytes (setBytes data 0 [0x23, 0x00, 0x20]) 4 (leBytes 2 (speedVal m val) ++ [0, 0])
    | .acturalPos => setBytes (setBytes data 0 [0x40, 0x04, 0x21]) 4 [0, 0, 0, 0]
    | .driState => setBytes (setBytes data 0 [0x40, 0x12, 0x21]) 4 [0, 0, 0, 0]
    | _ => data

def decode (ct : MotorDriverCmdType) (msg : CanMsg) : Decoded :=
  let val := toInt32 (littleEndian [msg.cmData 4, msg.cmData 5, msg.cmData 6, msg.cmData 7])
  if msg.cmData 1 = 0x00 ∧ msg.cmData 2 = 0x20 then ⟨true, .targetSpeed, val⟩
  else if msg.cmData 1 = 0x04 ∧ msg.cmData 2 = 0x21 then ⟨true, .acturalPos, val⟩
  else if msg.cmData 1 = 0x12 ∧ msg.cmData 2 = 0x21 then
    ⟨true, .driState, littleEndian [msg.cmData 4, msg.cmData 5, msg.cmData 6]⟩
  else ⟨true, ct, val⟩

/-- The loop of `getMotorIndex` from motor `i` on (`k` left), with `none` for the failed
    assertion behind it. -/
def indexFrom (d : CProtocolKeya) (msg : CanMsg) : Nat → Nat → Nat → Option Nat
  | 0, _, _ => none
  | k + 1, i, subIdxCount =>
    if msg.chId = d.motorTxId i then
      if (msg.cmData 3).toNat = subIdxCount + 1 then some i else indexFrom d msg k (i + 1) (subIdxCount + 1)
    else indexFrom d msg k (i + 1) subIdxCount

def getMotorIndex (d : CProtocolKeya) (msg : CanMsg) : Option Nat := indexFrom d msg 4 0 0

/-! ## The motor that is found -/

theorem indexFrom_eq_some (d : CProtocolKeya) (msg : CanMsg) (k : Nat) : ∀ i j,
    indexFrom d msg k i (Nat.count (fun l => d.motorTxId l = msg.chId) i) = some j ↔
      (i ≤ j ∧ j < i + k) ∧ d.motorTxId j = msg.chId ∧
        (msg.cmData 3).toNat = Nat.count (fun l => d.motorTxId l = msg.chId) j + 1 := by
  induction k with
  | zero =>
    intro i j
    refine iff_of_false (fun h => by cases h) ?_
    intro h
    obtain ⟨hj, -⟩ := h
    omega
  | succ k ih =>
    intro i j
    rw [indexFrom]
    by_cases hid : d.motorTxId i = msg.chId
    · have hcount : Nat.count (fun l => d.motorTxId l = msg.chId) i + 1 =
          Nat.count (fun l => d.motorTxId l = msg.chId) (i + 1) :=
        (Nat.count_succ_eq_succ_count (p := fun l => d.motorTxId l = msg.chId) hid).symm
      rw [if_pos hid.symm]
      split
      case isTrue hsub =>
        constructor
        · intro h
          obtain rfl := Option.some.inj h
          exact ⟨by omega, hid, hsub⟩
        · intro h
          obtain ⟨hj, hkey, hplace⟩ := h
          rw [Nat.count_injective (p := fun l => d.motorTxId l = msg.chId) hid hkey (by omega)]
      case isFalse hsub =>
        rw [hcount, ih]
        constructor
        · intro h
          obtain ⟨hj, h⟩ := h
          exact ⟨by omega, h⟩
        · intro h
          obtain ⟨hj, hkey, hplace⟩ := h
          refine ⟨⟨?_, by omega⟩, hkey, hplace⟩
          rcases Nat.lt_or_eq_of_le hj.1 with hlt | rfl
          · exact hlt
          · exact absurd hplace hsub
    · have hcount : Nat.count (fun l => d.motorTxId l = msg.chId) i =
          Nat.count (fun l => d.motorTxId l = msg.chId) (i + 1) :=
        (Nat.count_succ_eq_count (p := fun l => d.motorTxId l = msg.chId) hid).symm
      rw [if_neg fun h => hid h.symm, hcount, ih]
      constructor
      · intro h
        obtain ⟨hj, h⟩ := h
        exact ⟨by omega, h⟩
      · intro h
        obtain ⟨hj, hkey, hplace⟩ := h
        refine ⟨⟨?_, by omega⟩, hkey, hplace⟩
        rcases Nat.lt_or_eq_of_le hj.1 with hlt | rfl
        · exact hlt
        · exact absurd hkey hid

/-- A frame with the id of motor `i`: the place it names is that of `i` among the motors
    with the id. -/
theorem getMotorIndex_own {d : CProtocolKeya} {msg : CanMsg} {i : Nat} (hid : msg.chId = d.motorTxId i) :
    d.getMotorIndex msg = some i ↔ i < 4 ∧ (msg.cmData 3).toNat = rank d.motorTxId i + 1 := by
  have hloop := indexFrom_eq_some d msg 4 0 i
  rw [Nat.count_zero] at hloop
  refine hloop.trans ?_
  rw [rank, hid]
  constructor
  · intro h
    obtain ⟨hi, -, hplace⟩ := h
    exact ⟨by omega, hplace⟩
  · intro h
    obtain ⟨hi, hplace⟩ := h
    exact ⟨by omega, rfl, hplace⟩

/-! ## Replies -/

/-- The commands `encode` knows. -/
def Known (ct : MotorDriverCmdType) : Prop := ct = .targetSpeed ∨ ct = .acturalPos ∨ ct = .driState

/-- A reply to a request: the place on the drive, the type it is taken for whatever the type
    was before, and the position. -/
structure Answers (motorIdx : Nat) (ct : MotorDriverCmdType) (dr : Drive) (msg : CanMsg) : Prop where
  chId : msg.chId = dr.chId
  place : (msg.cmData 3).toNat = subIndex motorIdx
  decoded : ∀ ct', (decode ct' msg).ct = ct
  value : ct = .acturalPos → ∀ ct', (decode ct' msg).val = toInt32 dr.value.toNat

theorem toNat_subIndex (motorIdx : Nat) : (UInt8.ofNat (subIndex motorIdx)).toNat = subIndex motorIdx := by
  rw [UInt8.toNat_ofNat']
  unfold subIndex
  omega

/-- Bytes 4 to 7 behind the four of a header. -/
theorem littleEndian_tail (a b c e : UInt8) (n : Int) :
    littleEndian [bytesOf ([a, b, c, e] ++ leBytes 4 n) 4, bytesOf ([a, b, c, e] ++ leBytes 4 n) 5,
      bytesOf ([a, b, c, e] ++ leBytes 4 n) 6, bytesOf ([a, b, c, e] ++ leBytes 4 n) 7] = littleEndian (leBytes 4 n) := rfl

theorem answer_request (m : CMileage) (d : CProtocolKeya) (motorIdx : Nat) {ct : MotorDriverCmdType} (h : Known ct)
    (val : Int) (msg : StdTxMsg) (dr : Drive) :
    ∃ reply, dr.answer (encode m d motorIdx ct val msg).data = some reply ∧ Answers motorIdx ct dr reply := by
  rcases h with rfl | rfl | rfl
  · exact ⟨_, dr.answer_write (show (0x23 : UInt8) >>> 5 = 1 by decide), rfl, toNat_subIndex motorIdx, fun _ => rfl,
      fun h => by cases h⟩
  · have hup : uploadData dr.value (encode m d motorIdx .acturalPos val msg).data =
        [0x43, 0x04, 0x21, UInt8.ofNat (subIndex motorIdx)] ++ leBytes 4 dr.value.toNat :=
      if_neg fun h => absurd (show (0x04 : UInt8) = 0x41 from h.1) (by decide)
    have hread : dr.answer (encode m d motorIdx .acturalPos val msg).data = some { chId := dr.chId, cmData := bytesOf _ } :=
      dr.answer_read (show (0x40 : UInt8) >>> 5 = 2 by decide)
    rw [hup] at hread
    refine ⟨_, hread, rfl, toNat_subIndex motorIdx, fun _ => rfl, ?_⟩
    intro _ ct'
    rw [decode]
    dsimp only
    rw [if_neg fun h => absurd (show (0x04 : UInt8) = 0x00 from h.1) (by decide), if_pos ⟨rfl, rfl⟩]
    dsimp only
    rw [littleEndian_tail, littleEndian_word]
  · have hup : uploadData dr.value (encode m d motorIdx .driState val msg).data =
        [0x43, 0x12, 0x21, UInt8.ofNat (subIndex motorIdx)] ++ leBytes 4 dr.value.toNat :=
      if_neg fun h => absurd (show (0x12 : UInt8) = 0x41 from h.1) (by decide)
    have hread : dr.answer (encode m d motorIdx .driState val msg).data = some { chId := dr.chId, cmData := bytesOf _ } :=
      dr.answer_read (show (0x40 : UInt8) >>> 5 = 2 by decide)
    rw [hup] at hread
    exact ⟨_, hread, rfl, toNat_subIndex motorIdx, fun _ => rfl, fun h => by cases h⟩

/-- The drive of motor `i` answers every request for it, and the reply is taken for what was
    asked and attributed to the motor. -/
def Attributed (m : CMileage) (d : CProtocolKeya) (i : Nat) : Prop :=
  ∀ (ct : MotorDriverCmdType) (val : Int) (msg : StdTxMsg) (dr : Drive), Known ct → dr.chId = d.motorTxId i →
    ∃ reply, dr.answer (encode m d i ct val msg).data = some reply ∧ Answers i ct dr reply ∧ d.getMotorIndex reply = some i

theorem attributed_iff_rank (m : CMileage) (d : CProtocolKeya) {i : Nat} (hi : i < 4) :
    Attributed m d i ↔ rank d.motorTxId i = i % 2 := by
  constructor
  · intro h
    let dr : Drive := { chId := d.motorTxId i, value := 0, other := fun _ => none }
    have hknown : Known .acturalPos := Or.inr (Or.inl rfl)
    have hmsg : StdTxMsg := { stdId := 0, data := fun _ => 0 }
    obtain ⟨reply, -, hans, hidx⟩ := h .acturalPos 0 hmsg dr hknown rfl
    have hrank := ((getMotorIndex_own hans.chId).mp hidx).2
    have hplace := hans.place
    unfold subIndex at hplace
    omega
  · intro hrank ct val msg dr hct hdr
    obtain ⟨reply, hreply, hans⟩ := answer_request m d i hct val msg dr
    refine ⟨reply, hreply, hans, (getMotorIndex_own (hans.chId.trans hdr)).mpr ⟨hi, ?_⟩⟩
    rw [hans.place, hrank, subIndex, Nat.add_comm]

theorem replies_attributed (m : CMileage) (d : CProtocolKeya) :
    (∀ i, i < m.numOfWheel → Attributed m d i) ↔ Paired d.motorTxId m.numOfWheel := by
  have hle : m.numOfWheel ≤ 4 := numOfWheel_le m.chassisType
  rw [← rank_parity_iff]
  constructor
  · intro h i hi
    exact (attributed_iff_rank m d (by omega)).mp (h i hi)
  · intro h i hi
    exact (attributed_iff_rank m d (by omega)).mpr (h i hi)

end CProtocolKeya

end SeerDIOBoard.Can
