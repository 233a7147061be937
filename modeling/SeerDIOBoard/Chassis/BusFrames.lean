/-
  SeerDIOBoard.Chassis.BusFrames — what a drive makes of the frames of the board, and the
  board of its answers (see `SeerDIOBoard.Chassis.Bus`).

  - `answer_init`: the answer to a frame of `doInit` is nothing to `decode`, so it can be
    left in the queue for a later round to skip.
  - `answer_speed`, `handle_speed`: a speed command is acknowledged as one, and the drive has
    the velocity.
  - `answer_pos`: the answer to a query has the low 32 bits of the position.
-/

import SeerDIOBoard.Chassis.Bus

namespace SeerDIOBoard.Chassis

open Lib.Bytes
open SeerDIOBoard.Can

/-! ## What the drives make of a frame -/

/-- A frame that is nothing to `decode`. -/
def Stray (d : CDriverCanProtocol) (msg : CanMsg) : Prop := ∀ val, d.decode val msg = ⟨true, .undefined, val⟩

/-- The request that `doInit` sends. -/
def StrayReq (req : Nat → UInt8) : Prop := req = bytesOf CDriverCanProtocol.initData

/-- The request of drive `j` in a round. -/
def Asks (d : CDriverCanProtocol) (w : Waited) (vel : Nat → Int) (j : Nat) (req : Nat → UInt8) : Prop :=
  ∃ l, req = (d.encode j w.ct (vel j) l).cmData

theorem sender_lt (msg : CanMsg) : sender msg < 2 := by
  unfold sender CChassisDevice.slot
  split
  · decide
  split
  · decide
  · decide

theorem sender_of_chId {msg : CanMsg} {j : Nat} (hj : j < 2) (h : msg.chId = 0x581 + j) : sender msg = j := by
  unfold sender
  rw [h]
  obtain rfl | rfl : j = 0 ∨ j = 1 := by omega
  · rfl
  · rfl

theorem listener_add {j : Nat} (hj : j < 2) : listener (0x601 + j) = some j := by
  obtain rfl | rfl : j = 0 ∨ j = 1 := by omega
  · rfl
  · rfl

theorem listener_lt {id j : Nat} (h : listener id = some j) : j < 2 := by
  unfold listener at h
  split at h
  · obtain rfl := Option.some.inj h
    decide
  split at h
  · obtain rfl := Option.some.inj h
    decide
  · cases h

theorem answer_chId {D : Drive} {req : Nat → UInt8} {msg : CanMsg} (h : D.answer req = some msg) : msg.chId = D.chId := by
  unfold Drive.answer at h
  split at h
  · obtain rfl := Option.some.inj h
    rfl
  split at h
  · obtain rfl := Option.some.inj h
    rfl
  · obtain ⟨data, -, rfl⟩ := Option.map_eq_some_iff.mp h
    rfl

/-- A write, for a server as for `sdoServer`. -/
theorem answer_write (D : Drive) {req : Nat → UInt8} (h : req 0 = 0x23) : D.answer req = sdoServer D.chId D.value req := by
  unfold Drive.answer sdoServer
  rw [h, if_pos (by decide), if_pos rfl]

/-- The head of a speed command, for either driver. -/
theorem encode_speed_head (d : CDriverCanProtocol) (j : Nat) (v : Int) (l : CanTxMsg) :
    (d.encode j .targetSpeed v l).cmData 0 = 0x23 ∧
      ((d.encode j .targetSpeed v l).cmData 1 = 0x41 ∧ (d.encode j .targetSpeed v l).cmData 2 = 0x23 ∨
        (d.encode j .targetSpeed v l).cmData 1 = 0xff ∧ (d.encode j .targetSpeed v l).cmData 2 = 0x60) := by
  rcases d with ⟨⟨_ | _⟩ | ⟨_ | _⟩, tx, rx, inv⟩
  · exact ⟨rfl, Or.inl ⟨rfl, rfl⟩⟩
  · exact ⟨rfl, Or.inr ⟨rfl, rfl⟩⟩
  · exact ⟨rfl, Or.inl ⟨rfl, rfl⟩⟩
  · exact ⟨rfl, Or.inl ⟨rfl, rfl⟩⟩

theorem toInt32_ofInt (q : Int) : toInt32 (UInt32.ofInt q).toNat = toInt32 q := by
  have hnat : ((UInt32.ofInt q).toNat : Int) = q % 2 ^ 32 := by
    have hpos := Int.emod_nonneg q (by decide : (2 ^ 32 : Int) ≠ 0)
    have hlt := Int.emod_lt_of_pos q (by decide : (0 : Int) < 2 ^ 32)
    rw [UInt32.ofInt, UInt32.toNat_ofNat']
    omega
  rw [hnat, toInt32, toInt32]
  exact Int.emod_bmod q _

namespace Motor

variable (d : CDriverCanProtocol) (m : Motor) (j : Nat)

theorem handle_init : m.handle (bytesOf CDriverCanProtocol.initData) = m := if_neg (by decide)

theorem isRead_init : isRead (bytesOf CDriverCanProtocol.initData) = false := by decide

theorem answer_init {msg : CanMsg} (h : (m.drive j).answer (bytesOf CDriverCanProtocol.initData) = some msg) :
    Stray d msg := by
  have hanswer : (m.drive j).answer (bytesOf CDriverCanProtocol.initData) =
      some { chId := 0x581 + j, cmData := bytesOf [0x60, 0x60, 0x60, 0, 0, 0, 0, 0] } := if_pos (by decide)
  obtain rfl := Option.some.inj (hanswer.symm.trans h)
  rcases d with ⟨⟨_ | _⟩ | ⟨_ | _⟩, tx, rx, inv⟩
  all_goals
    intro val
    rfl

theorem handle_target {req : Nat → UInt8} (h : isTarget req = true) :
    (m.handle req).target = toInt32 (littleEndian ([4, 5, 6, 7].map req)) := by
  rw [handle, if_pos h]

theorem handle_speed (v : Int) (l : CanTxMsg) :
    (m.handle (d.encode j .targetSpeed v l).cmData).target = toInt32 v ∧
      isRead (d.encode j .targetSpeed v l).cmData = false := by
  obtain ⟨h0, hobject⟩ := encode_speed_head d j v l
  have htarget : isTarget (d.encode j .targetSpeed v l).cmData = true :=
    decide_eq_true ⟨by rw [h0]; decide, hobject⟩
  refine ⟨?_, ?_⟩
  · rw [handle_target m htarget, d.encode_speed_bytes, littleEndian_leBytes, toInt32, toInt32]
    exact Int.emod_bmod v _
  · unfold isRead
    rw [h0]
    decide

theorem answer_speed (v : Int) (l : CanTxMsg) :
    ∃ msg, (m.drive j).answer (d.encode j .targetSpeed v l).cmData = some msg ∧
      ∀ val, d.decode val msg = ⟨true, .targetSpeed, val⟩ := by
  rw [answer_write _ (encode_speed_head d j v l).1]
  have hdec := fun val => d.decode_speed_answer j v (m.drive j).value (m.drive j).chId val l
  cases hanswer : sdoServer (m.drive j).chId (m.drive j).value (d.encode j .targetSpeed v l).cmData with
  | none =>
    rw [hanswer] at hdec
    cases hdec 0
  | some msg =>
    rw [hanswer] at hdec
    exact ⟨msg, rfl, fun val => Option.some.inj (hdec val)⟩

theorem handle_pos (v : Int) (l : CanTxMsg) :
    m.handle (d.encode j .acturalPos v l).cmData = m ∧ isRead (d.encode j .acturalPos v l).cmData = true := by
  rw [d.encode_pos]
  refine ⟨if_neg ?_, ?_⟩
  · intro h
    have h0 : (0x40 : UInt8) >>> 5 = 1 := (of_decide_eq_true h).1
    exact absurd h0 (by decide)
  · show decide ((0x40 : UInt8) >>> 5 = 2) = true
    decide

theorem answer_pos (v : Int) (l : CanTxMsg) :
    ∃ msg, (m.drive j).answer (d.encode j .acturalPos v l).cmData = some msg ∧
      ∀ val, d.decode val msg = ⟨true, .acturalPos, toInt32 m.position⟩ := by
  obtain ⟨acks, hacks, hdec⟩ := d.decode_shape
  have hanswer : (m.drive j).answer (d.encode j .acturalPos v l).cmData =
      some { chId := 0x581 + j,
             cmData := bytesOf ([0x43, 0x64, 0x60, 0x00] ++ leBytes 4 (UInt32.ofInt m.position).toNat) } := by
    rw [d.encode_pos, Drive.answer]
    show (if (0x40 : UInt8) >>> 5 = 1 then _ else if (0x40 : UInt8) >>> 5 = 2 then _ else _) = _
    rw [if_neg (by decide), if_pos (by decide), uploadData]
    show some (CanMsg.mk _ (bytesOf (if (0x64 : UInt8) = 0x41 ∧ (0x60 : UInt8) = 0x60 then _ else _))) = _
    rw [if_neg (by decide)]
    rfl
  refine ⟨_, hanswer, fun val => ?_⟩
  rw [hdec, decodeWith_pos_answer acks hacks [0x43, 0x02, 0x10, 0x00] _ (UInt32.ofInt m.position) val, toInt32_ofInt]

end Motor

end SeerDIOBoard.Chassis
