/-
  SeerDIOBoard.Can.Grammar — the frames the two built `decode`s accept
  (DriverProtocol/ProtocolJingZhiCanopen.cxx and ProtocolCopleyCAN.cxx).

  Each runs its patterns one after another over the same accumulator. A pattern that is
  given up part way leaves the accumulator empty (`matchReply_of_not_head`), so the value
  is always that of the matched frame's own last four bytes.
  - `decode_eq`, `decode_copley`: what comes out, by the bytes the frame begins with.
  - `decode_grammar`: the types JingZhi reports are exactly those of its grammar, and
    CopleyCAN agrees on every frame but the acknowledgement of its position mode.
-/

import Mathlib.Data.List.GetD
import SeerDIOBoard.Can.Requests

namespace SeerDIOBoard.Can

open Lib.Bytes

/-- The frame's first bytes are `l`. -/
def Begins (l : List UInt8) (data : Nat → UInt8) : Prop := ∀ i, i < l.length → data i = l.getD i 0

instance (l : List UInt8) (data : Nat → UInt8) : Decidable (Begins l data) := by
  unfold Begins
  infer_instance

theorem head_iff_begins {a b c d : UInt8} {l : List UInt8} {data : Nat → UInt8} :
    Head (a :: b :: c :: d :: l) data ↔ Begins [a, b, c, d] data := by
  constructor
  · intro h i hi
    obtain rfl | rfl | rfl | rfl : i = 0 ∨ i = 1 ∨ i = 2 ∨ i = 3 := by simp at hi; omega
    · exact (h 0 (by decide)).symm
    · exact (h 1 (by decide)).symm
    · exact (h 2 (by decide)).symm
    · exact (h 3 (by decide)).symm
  · intro h i hi
    obtain rfl | rfl | rfl | rfl : i = 0 ∨ i = 1 ∨ i = 2 ∨ i = 3 := by omega
    · exact (h 0 (by simp)).symm
    · exact (h 1 (by simp)).symm
    · exact (h 2 (by simp)).symm
    · exact (h 3 (by simp)).symm

theorem getD_padded (l : List UInt8) (k i : Nat) : (l ++ List.replicate k 0).getD i 0 = l.getD i 0 := by
  by_cases hi : i < l.length
  · exact List.getD_append _ _ _ _ hi
  · rw [List.getD_append_right _ _ _ _ (not_lt.mp hi), List.getD_eq_default l _ (not_lt.mp hi)]
    by_cases hk : i - l.length < k
    · exact List.getD_replicate _ hk
    · exact List.getD_eq_default _ _ (by simpa using not_lt.mp hk)

/-- A pattern of three bytes is compared as if it ended in zeros. -/
theorem memcmp8_iff {a b c : UInt8} {data : Nat → UInt8} :
    memcmp8 [a, b, c] data = true ↔ Begins [a, b, c, 0, 0, 0, 0, 0] data := by
  have hpad (i : Nat) : [a, b, c, 0, 0, 0, 0, 0].getD i 0 = [a, b, c].getD i 0 := getD_padded [a, b, c] 5 i
  unfold memcmp8 Begins
  rw [List.all_eq_true]
  constructor
  · intro h i hi
    have hb := h i (List.mem_range.mpr hi)
    rw [beq_iff_eq] at hb
    rw [← hb, hpad]
  · intro h i hi
    rw [beq_iff_eq, h i (List.mem_range.mp hi), hpad]

/-- The value in the last four bytes of a frame. -/
def lastWord (data : Nat → UInt8) : Int := toInt32 (littleEndian [data 4, data 5, data 6, data 7])

def positionReply : List UInt8 := [0x43, 0x64, 0x60, 0x00]
def errorReply : List UInt8 := [0x43, 0x02, 0x10, 0x00]
def velModeAck : List UInt8 := [0x60, 0x41, 0x23, 0x00, 0x00, 0x00, 0x00, 0x00]
def posModeAck : List UInt8 := [0x60, 0xff, 0x60, 0x00, 0x00, 0x00, 0x00, 0x00]

/-- What JingZhi makes of a frame. -/
theorem decode_eq (val : Int) (msg : CanMsg) :
    CProtocolJingZhiCanopen.decode val msg =
      if Begins velModeAck msg.cmData then ⟨true, .targetSpeed, val⟩
      else if Begins positionReply msg.cmData then ⟨true, .acturalPos, lastWord msg.cmData⟩
      else if Begins errorReply msg.cmData then ⟨false, .driState, lastWord msg.cmData⟩
      else ⟨true, .undefined, val⟩ := by
  have hack : (([CProtocolJingZhiCanopen.targetSpeedData].any fun pat => memcmp8 pat msg.cmData) = true) ↔
      Begins velModeAck msg.cmData := by
    rw [List.any_cons, List.any_nil, Bool.or_false]
    exact memcmp8_iff
  have hpos : Head CProtocolJingZhiCanopen.acturalPosData msg.cmData ↔ Begins positionReply msg.cmData := head_iff_begins
  have herr : Head CProtocolJingZhiCanopen.errCodeData msg.cmData ↔ Begins errorReply msg.cmData := head_iff_begins
  unfold CProtocolJingZhiCanopen.decode
  by_cases h1 : Begins velModeAck msg.cmData
  · rw [if_pos h1, decodeWith, if_pos (hack.mpr h1)]
  have hno := Bool.eq_false_iff.mpr fun h => h1 (hack.mp h)
  rw [if_neg h1]
  by_cases h2 : Begins positionReply msg.cmData
  · rw [if_pos h2, decodeWith_pos val hno (hpos.mpr h2)]
    rfl
  rw [if_neg h2]
  by_cases h3 : Begins errorReply msg.cmData
  · rw [if_pos h3, decodeWith_err val hno (fun h => h2 (hpos.mp h)) (herr.mpr h3)]
    rfl
  rw [if_neg h3, decodeWith_other val hno (fun h => h2 (hpos.mp h)) fun h => h3 (herr.mp h)]

/-- CopleyCAN knows one acknowledgement more. -/
theorem decode_copley (val : Int) (msg : CanMsg) :
    CProtocolCopleyCAN.decode val msg =
      if Begins posModeAck msg.cmData then ⟨true, .targetSpeed, val⟩ else CProtocolJingZhiCanopen.decode val msg := by
  unfold CProtocolCopleyCAN.decode CProtocolJingZhiCanopen.decode decodeWith
  by_cases h : Begins posModeAck msg.cmData
  · have hcmp : memcmp8 CProtocolCopleyCAN.posModeTargetSpeedData msg.cmData = true := memcmp8_iff.mpr h
    rw [if_pos h, List.any_cons, hcmp, Bool.true_or, if_pos rfl]
  · have hcmp : memcmp8 CProtocolCopleyCAN.posModeTargetSpeedData msg.cmData = false :=
      Bool.eq_false_iff.mpr fun hc => h (memcmp8_iff.mp hc)
    rw [if_neg h, List.any_cons, hcmp, Bool.false_or]
    rfl

/-- A result of `decode` for a frame that found `val`, by the grammar. -/
structure Grammatical (val : Int) (data : Nat → UInt8) (r : Decoded) : Prop where
  targetSpeed : r.ct = .targetSpeed ↔ Begins velModeAck data
  acturalPos : r.ct = .acturalPos ↔ Begins positionReply data
  driState : r.ct = .driState ↔ Begins errorReply data
  undefined : r.ct = .undefined ↔
    ¬ Begins velModeAck data ∧ ¬ Begins positionReply data ∧ ¬ Begins errorReply data
  value : r.val = if r.ct = .acturalPos ∨ r.ct = .driState then lastWord data else val
  ok : r.ok = false ↔ r.ct = .driState

/-- The three kinds of frames differ in their first two bytes. -/
theorem ack_not_reply {data : Nat → UInt8} (h : Begins velModeAck data) :
    ¬ Begins positionReply data ∧ ¬ Begins errorReply data := by
  have h0 : data 0 = 0x60 := h 0 (by decide)
  constructor
  · intro hp
    have hp0 : data 0 = 0x43 := hp 0 (by decide)
    exact absurd (h0.symm.trans hp0) (by decide)
  · intro he
    have he0 : data 0 = 0x43 := he 0 (by decide)
    exact absurd (h0.symm.trans he0) (by decide)

theorem position_not_error {data : Nat → UInt8} (h : Begins positionReply data) : ¬ Begins errorReply data := by
  intro he
  have h1 : data 1 = 0x64 := h 1 (by decide)
  have he1 : data 1 = 0x02 := he 1 (by decide)
  exact absurd (h1.symm.trans he1) (by decide)

theorem decode_grammar (val : Int) (msg : CanMsg) :
    Grammatical val msg.cmData (CProtocolJingZhiCanopen.decode val msg) ∧
      CProtocolCopleyCAN.decode val msg =
        if Begins posModeAck msg.cmData then ⟨true, .targetSpeed, val⟩
        else CProtocolJingZhiCanopen.decode val msg := by
  refine ⟨?_, decode_copley val msg⟩
  rw [decode_eq]
  by_cases h1 : Begins velModeAck msg.cmData
  · obtain ⟨h2, h3⟩ := ack_not_reply h1
    rw [if_pos h1]
    constructor <;> simp [h1, h2, h3]
  rw [if_neg h1]
  by_cases h2 : Begins positionReply msg.cmData
  · have h3 := position_not_error h2
    rw [if_pos h2]
    constructor <;> simp [h1, h2, h3]
  rw [if_neg h2]
  by_cases h3 : Begins errorReply msg.cmData
  · rw [if_pos h3]
    constructor <;> simp [h1, h2, h3]
  · rw [if_neg h3]
    constructor <;> simp [h1, h2, h3]

end SeerDIOBoard.Can
