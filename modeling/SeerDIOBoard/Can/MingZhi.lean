/-
  SeerDIOBoard.Can.MingZhi — which rounds MingZhi serves.

  Once the start-up is over every round is served. Before, every other frame goes to
  0x610, and the ones in between go through the motors one after the other, five each,
  whatever wheel `encode` was called for. So with two wheels or more some motor is left
  out of every round (`ready_of_served`), and with one wheel the round is served when it
  asks for a speed, its frame is one to the motor, and it is not the last one: that one
  reads the status word, and its reply finds the start-up over.

  `Sane` are the ids `ready_of_served` needs: the motors have different ids, and none is
  0x610.
-/

import Mathlib.Data.Fintype.EquivFin
import SeerDIOBoard.Can.InBandProofs

namespace SeerDIOBoard.Can

open Lib.Bytes SeerDIOBoard.Mileage

/-- As many frames as motors, and a frame to each of them: then every frame is to one of them. -/
theorem addressed_of_all {ids : Nat → Nat} {frames : List StdTxMsg} {n : Nat} (hlen : frames.length = n)
    (hids : ∀ i j, i < n → j < n → ids i = ids j → i = j) (hall : ∀ i, i < n → ∃ f ∈ frames, f.stdId = ids i) :
    ∀ f ∈ frames, ∃ i, i < n ∧ f.stdId = ids i := by
  subst hlen
  have hidx : ∀ i : Fin frames.length, ∃ j : Fin frames.length, frames[j].stdId = ids i := by
    intro i
    obtain ⟨f, hf, hid⟩ := hall i i.isLt
    obtain ⟨j, hj, rfl⟩ := List.getElem_of_mem hf
    exact ⟨⟨j, hj⟩, hid⟩
  choose g hg using hidx
  have hinj : Function.Injective g := by
    intro i j hij
    refine Fin.ext (hids i j i.isLt j.isLt ?_)
    rw [← hg i, ← hg j, hij]
  intro f hf
  obtain ⟨j, hj, rfl⟩ := List.getElem_of_mem hf
  obtain ⟨i, hi⟩ := Finite.injective_iff_surjective.mp hinj ⟨j, hj⟩
  refine ⟨i, i.isLt, ?_⟩
  rw [← hg i, hi]
  rfl

namespace CProtocolMingZhiCanopen

/-! ## Decoding -/

theorem decode_early (m : CMileage) {d : CProtocolMingZhiCanopen} (h : d.isInitSend = false) (val : Int) (msg : CanMsg) :
    (decode m d val msg).2 = ⟨true, .targetSpeed, 0⟩ := by
  unfold decode
  rw [if_pos h.symm]

theorem decode_late (m : CMileage) {d : CProtocolMingZhiCanopen} (h : d.isInitSend = true) (val : Int) {msg : CanMsg}
    (hack : isSpeedAck msg.cmData = false) :
    (decode m d val msg).2 = decodeWith [] acturalPosData errCodeData val msg := by
  unfold decode
  rw [if_neg (by rw [h]; exact Bool.noConfusion), if_neg (by rw [hack]; exact Bool.false_ne_true)]
  dsimp only
  split
  · rfl
  · rfl

def CommandFrame (cmd : Waited) (data : Nat → UInt8) : Prop :=
  ∃ speedVal old, data = encodeRequest [0x43, 0x0a, 0x70] cmd.ct speedVal old

theorem decode_command (m : CMileage) {d : CProtocolMingZhiCanopen} (hinit : d.isInitSend = true) {cmd : Waited}
    {data : Nat → UInt8} (h : CommandFrame cmd data) (dr : Drive) :
    ∃ msg, dr.answer data = some msg ∧ ∀ val, (decode m d val msg).2.ct = cmd.ct := by
  obtain ⟨speedVal, old, rfl⟩ := h
  cases cmd with
  | targetSpeed =>
    refine ⟨_, dr.answer_write (show (0x23 : UInt8) >>> 5 = 1 by decide), fun val => ?_⟩
    rw [decode, if_neg (by rw [hinit]; exact Bool.noConfusion)]
    rfl
  | acturalPos =>
    refine ⟨_, dr.answer_read (show (0x43 : UInt8) >>> 5 = 2 by decide), fun val => ?_⟩
    have hup : uploadData dr.value (encodeRequest [0x43, 0x0a, 0x70] Waited.acturalPos.ct speedVal old) =
        [0x43, 0x0a, 0x70, 0] ++ leBytes 4 dr.value.toNat :=
      if_neg fun h => absurd (show (0x0a : UInt8) = 0x41 from h.1) (by decide)
    rw [hup, decode_late m hinit val rfl]
    exact congrArg Decoded.ct (decodeWith_pos val rfl (head_of_bytes rfl rfl rfl rfl))

/-- The status word is no reply to a command. -/
theorem decode_status (m : CMileage) {d : CProtocolMingZhiCanopen} (hinit : d.isInitSend = true) (dr : Drive) :
    ∃ msg, dr.answer (bytesOf (velModeInitData.getD 4 [])) = some msg ∧
      ∀ val, (decode m d val msg).2.ct = .driState := by
  refine ⟨_, dr.answer_read (show (0x40 : UInt8) >>> 5 = 2 by decide), fun val => ?_⟩
  have hup : uploadData dr.value (bytesOf (velModeInitData.getD 4 [])) =
      [0x4B, 0x41, 0x60, 0] ++ leBytes 2 dr.value.toNat ++ [0, 0] := if_pos ⟨rfl, rfl⟩
  rw [hup, decode_late m hinit val rfl]
  refine congrArg Decoded.ct (decodeWith_err val rfl (not_head ?_) (head_of_bytes rfl rfl rfl rfl))
  exact show (0x43 : UInt8) ≠ 0x4B by decide

/-- Every start-up frame is answered. -/
theorem answer_init (dr : Drive) {row : Nat} (h : row < 5) :
    ∃ msg, dr.answer (bytesOf (velModeInitData.getD row [])) = some msg := by
  obtain rfl | rfl | rfl | rfl | rfl : row = 0 ∨ row = 1 ∨ row = 2 ∨ row = 3 ∨ row = 4 := by omega
  · exact ⟨_, dr.answer_write (show (0x2B : UInt8) >>> 5 = 1 by decide)⟩
  · exact ⟨_, dr.answer_write (show (0x2B : UInt8) >>> 5 = 1 by decide)⟩
  · exact ⟨_, dr.answer_write (show (0x2B : UInt8) >>> 5 = 1 by decide)⟩
  · exact ⟨_, dr.answer_write (show (0x2F : UInt8) >>> 5 = 1 by decide)⟩
  · exact ⟨_, dr.answer_read (show (0x40 : UInt8) >>> 5 = 2 by decide)⟩

/-! ## Rounds after the start-up -/

theorem sendAll_late (m : CMileage) (r : Round) {d : CProtocolMingZhiCanopen} (h : d.isInitSend = true) (k : Nat) :
    ∀ i, ∃ frames, inBand.sendAll m r k i d = some (d, frames) ∧
      (∀ f ∈ frames, CommandFrame r.cmd f.data) ∧ (∀ f ∈ frames, ∃ j, j < k ∧ f.stdId = d.motorRxId (i + j)) ∧
      ∀ j, j < k → ∃ f ∈ frames, f.stdId = d.motorRxId (i + j) := by
  induction k with
  | zero =>
    exact fun i => ⟨[], rfl, fun f hf => absurd hf List.not_mem_nil, fun f hf => absurd hf List.not_mem_nil,
      fun j hj => absurd hj (Nat.not_lt_zero j)⟩
  | succ k ih =>
    intro i
    obtain ⟨frames, heq, hcmd, hid, hall⟩ := ih (i + 1)
    obtain ⟨f0, henc, hid0, hcmd0⟩ : ∃ f, inBand.encode m d i r.cmd.ct (r.val i) (r.txMessage i) = some (d, f) ∧
        f.stdId = d.motorRxId i ∧ CommandFrame r.cmd f.data :=
      ⟨_, if_neg (by rw [h]; exact Bool.noConfusion), rfl, _, _, rfl⟩
    refine ⟨f0 :: frames, ?_, fun f hf => ?_, fun f hf => ?_, fun j hj => ?_⟩
    · rw [InBand.sendAll, henc]
      exact congrArg (Option.map _) heq
    · rcases List.mem_cons.mp hf with rfl | hf
      · exact hcmd0
      · exact hcmd f hf
    · rcases List.mem_cons.mp hf with rfl | hf
      · exact ⟨0, Nat.succ_pos k, hid0⟩
      · obtain ⟨j, hj, hfj⟩ := hid f hf
        exact ⟨j + 1, Nat.succ_lt_succ hj, by rw [hfj, Nat.add_assoc, Nat.add_comm 1 j]⟩
    · cases j with
      | zero => exact ⟨f0, List.mem_cons_self, hid0⟩
      | succ j =>
        obtain ⟨f, hf, hfj⟩ := hall j (Nat.lt_of_succ_lt_succ hj)
        exact ⟨f, List.mem_cons_of_mem _ hf, by rw [hfj, Nat.add_assoc, Nat.add_comm 1 j]⟩

theorem served_late (m : CMileage) (r : Round) {d : CProtocolMingZhiCanopen} (h : d.isInitSend = true) :
    inBand.Served m d r := by
  obtain ⟨frames, heq, hcmd, _, hall⟩ := sendAll_late m r h m.numOfWheel 0
  refine ⟨d, frames, heq, fun i hi => ⟨?_, fun val msg ⟨f, hf, _, hmsg⟩ => ?_⟩⟩
  · obtain ⟨f, hf, hid⟩ := hall i hi
    obtain ⟨msg, hmsg, _⟩ := decode_command m h (hcmd f hf) (r.drive i)
    rw [Nat.zero_add] at hid
    exact ⟨msg, f, hf, hid, hmsg⟩
  · obtain ⟨msg', hmsg', hct⟩ := decode_command m h (hcmd f hf) (r.drive i)
    obtain rfl : msg' = msg := Option.some.inj (hmsg'.symm.trans hmsg)
    exact hct val

/-! ## Rounds of the start-up -/

/-- The rounds MingZhi serves. -/
def Ready (m : CMileage) (d : CProtocolMingZhiCanopen) (r : Round) : Prop :=
  m.numOfWheel = 0 ∨ d.isInitSend = true ∨
    m.numOfWheel = 1 ∧ r.cmd = .targetSpeed ∧ 1 ≤ d.count ∧ 2 ≤ d.msgCount.toInt ∧ d.msgCount.toInt ≤ 5

structure Sane (d : CProtocolMingZhiCanopen) : Prop where
  distinct : ∀ i j, i < 4 → j < 4 → d.motorRxId i = d.motorRxId j → i = j
  free : ∀ i, i < 4 → d.motorRxId i ≠ 0x610

/-- A frame that `startUp` sends: to 0x610, or one of the table's to a motor. -/
theorem startUp_cases {m : CMileage} {d d' : CProtocolMingZhiCanopen} {f : StdTxMsg} (h : startUp m d = some (d', f)) :
    d'.motorRxId = d.motorRxId ∧
      (d.count = 0 ∧ f.stdId = 0x610 ∧ d'.isInitSend = d.isInitSend ∧ d'.count = 1 ∨
        1 ≤ d.count ∧ d'.count = 0 ∧ d'.isInitSend = decide (d.msgCount - 1 = 0) ∧
          ∃ row idx : Nat, (currentMsg m d).toInt.tmod 5 = row ∧ (currentMsg m d).toInt.tdiv 5 % 2 ^ 8 = idx ∧ idx < 4 ∧
            f = { stdId := d.motorRxId idx, data := bytesOf (velModeInitData.getD row []) }) := by
  unfold startUp at h
  by_cases hc : 1 ≤ d.count
  · rw [if_pos hc] at h
    dsimp only at h
    split at h
    case isTrue hin =>
      obtain ⟨rfl, rfl⟩ := Prod.mk.inj (Option.some.inj h)
      have hpos : 0 ≤ (currentMsg m d).toInt.tdiv initMsgCounts % 2 ^ 8 := Int.emod_nonneg _ (by decide)
      refine ⟨rfl, .inr ⟨hc, rfl, rfl, _, _, (Int.toNat_of_nonneg hin.1).symm, (Int.toNat_of_nonneg hpos).symm, ?_, rfl⟩⟩
      have hlt := hin.2
      omega
    case isFalse => cases h
  · rw [if_neg hc] at h
    obtain ⟨rfl, rfl⟩ := Prod.mk.inj (Option.some.inj h)
    have hzero : d.count = 0 := by omega
    exact ⟨rfl, .inl ⟨hzero, rfl, rfl, by rw [hzero]⟩⟩

theorem encode_early {m : CMileage} {d : CProtocolMingZhiCanopen} (h : d.isInitSend = false) (i : Nat)
    (ct : MotorDriverCmdType) (val : Int) (msg : StdTxMsg) : inBand.encode m d i ct val msg = startUp m d := if_pos h.symm

theorem toInt_of_last {n : Int8} (h : n - 1 = 0) : n.toInt = 1 := by
  rw [Int8.sub_eq_iff_eq_add.mp h]
  rfl

theorem currentMsg_toInt {m : CMileage} {d : CProtocolMingZhiCanopen} (hlo : -128 ≤ m.numOfWheel * 5 - d.msgCount.toInt)
    (hhi : m.numOfWheel * 5 - d.msgCount.toInt < 128) :
    (currentMsg m d).toInt = m.numOfWheel * 5 - d.msgCount.toInt := Int8.toInt_ofInt_of_le hlo hhi

/-- On one wheel, with some frames to go after this one. -/
theorem startUp_one {m : CMileage} {d : CProtocolMingZhiCanopen} (hn : m.numOfWheel = 1) (hc : 1 ≤ d.count)
    (h2 : 2 ≤ d.msgCount.toInt) (h5 : d.msgCount.toInt ≤ 5) :
    ∃ d' row, row < 5 ∧ d'.isInitSend = false ∧ d'.motorRxId = d.motorRxId ∧
      startUp m d = some (d', { stdId := d.motorRxId 0, data := bytesOf (velModeInitData.getD row []) }) := by
  have hcur : (currentMsg m d).toInt = 5 - d.msgCount.toInt := by
    rw [currentMsg_toInt (by rw [hn]; omega) (by rw [hn]; omega), hn]
    rfl
  have hrow : (currentMsg m d).toInt.tmod initMsgCounts = 5 - d.msgCount.toInt := by
    rw [hcur]
    exact Int.tmod_eq_of_lt (by omega) (show 5 - d.msgCount.toInt < 5 by omega)
  have hidx : (currentMsg m d).toInt.tdiv initMsgCounts % 2 ^ 8 = 0 := by
    have hdiv : (5 - d.msgCount.toInt).tdiv initMsgCounts = 0 :=
      Int.tdiv_eq_zero_of_lt (by omega) (show 5 - d.msgCount.toInt < 5 by omega)
    rw [hcur, hdiv]
    rfl
  have hmore : ¬ d.msgCount - 1 = 0 := fun h => by
    have h1 := toInt_of_last h
    omega
  refine ⟨{ d with count := 0, msgCount := d.msgCount - 1, isInitSend := decide (d.msgCount - 1 = 0) },
    (5 - d.msgCount.toInt).toNat, by omega, decide_eq_false hmore, rfl, ?_⟩
  unfold startUp
  rw [if_pos hc]
  dsimp only
  rw [hrow, hidx, if_pos ⟨by omega, by decide⟩]
  rfl

theorem served_of_ready {m : CMileage} {d : CProtocolMingZhiCanopen} {r : Round} (h : Ready m d r) :
    inBand.Served m d r := by
  cases hs : d.isInitSend with
  | true => exact served_late m r hs
  | false =>
    rcases h with hn | hd | ⟨hn, hcmd, hc, h2, h5⟩
    · refine ⟨d, [], by rw [hn]; rfl, fun i hi => ?_⟩
      rw [hn] at hi
      exact absurd hi (Nat.not_lt_zero i)
    · rw [hs] at hd
      cases hd
    · obtain ⟨d', row, hrow, hs', hrx, heq⟩ := startUp_one hn hc h2 h5
      refine ⟨d', [{ stdId := d.motorRxId 0, data := bytesOf (velModeInitData.getD row []) }], ?_,
        fun i hi => ⟨?_, fun val msg _ => ?_⟩⟩
      · rw [hn, InBand.sendAll, encode_early hs, heq]
        rfl
      · obtain rfl : i = 0 := by omega
        obtain ⟨msg, hmsg⟩ := answer_init (r.drive 0) hrow
        exact ⟨msg, _, List.mem_cons_self, congrFun hrx.symm 0, hmsg⟩
      · rw [hcmd]
        exact congrArg Decoded.ct (decode_early m hs' val msg)

/-! ## No other round is served -/

theorem encode_rxId {m : CMileage} {d d' : CProtocolMingZhiCanopen} {i : Nat} {ct : MotorDriverCmdType} {val : Int}
    {msg f : StdTxMsg} (h : encode m d i ct val msg = some (d', f)) : d'.motorRxId = d.motorRxId := by
  unfold encode at h
  split at h
  · exact (startUp_cases h).1
  · obtain ⟨rfl, -⟩ := Prod.mk.inj (Option.some.inj h)
    rfl

theorem sendAll_shape {m : CMileage} {r : Round} (k : Nat) :
    ∀ {i : Nat} {d s' : CProtocolMingZhiCanopen} {frames : List StdTxMsg},
      inBand.sendAll m r k i d = some (s', frames) → frames.length = k ∧ s'.motorRxId = d.motorRxId := by
  induction k with
  | zero =>
    intro i d s' frames h
    obtain ⟨rfl, rfl⟩ := Prod.mk.inj (Option.some.inj h)
    exact ⟨rfl, rfl⟩
  | succ k ih =>
    intro i d s' frames h
    obtain ⟨d1, f, rest, he, hrest, rfl⟩ := InBand.sendAll_cons h
    obtain ⟨hlen, hrx⟩ := ih hrest
    exact ⟨by rw [List.length_cons, hlen], hrx.trans (encode_rxId he)⟩

/-- The frames of the table that go to motor 0 are the first five. -/
theorem currentMsg_of_first {m : CMileage} {d : CProtocolMingZhiCanopen} {row : Nat}
    (hrow : (currentMsg m d).toInt.tmod 5 = row) (hidx : (currentMsg m d).toInt.tdiv 5 % 2 ^ 8 = 0) :
    (currentMsg m d).toInt = row ∧ row < 5 := by
  have hlo := (currentMsg m d).le_toInt
  have hhi := (currentMsg m d).toInt_lt
  have hsplit := Int.mul_tdiv_add_tmod (currentMsg m d).toInt 5
  have hlt := Int.tmod_lt_of_pos (currentMsg m d).toInt (show (0 : Int) < 5 by decide)
  omega

/-- The last frame goes to the last motor. -/
theorem currentMsg_of_last {m : CMileage} {d : CProtocolMingZhiCanopen} {idx : Nat} (hlast : d.msgCount - 1 = 0)
    (hn : 1 ≤ m.numOfWheel) (hle : m.numOfWheel ≤ 4) (hidx : (currentMsg m d).toInt.tdiv 5 % 2 ^ 8 = idx) :
    idx + 1 = m.numOfWheel := by
  have hcount := toInt_of_last hlast
  have hcur := currentMsg_toInt (m := m) (d := d) (by omega) (by omega)
  rw [hcur, hcount, Int.tdiv_eq_ediv_of_nonneg (by omega)] at hidx
  omega

/-- One wheel: the frame is one to the motor, so it must not be the last. -/
theorem ready_of_one {m : CMileage} {d d1 : CProtocolMingZhiCanopen} {r : Round} {row : Nat} (hn : m.numOfWheel = 1)
    (hc : 1 ≤ d.count) (hs1 : d1.isInitSend = decide (d.msgCount - 1 = 0))
    (hrow : (currentMsg m d).toInt.tmod 5 = row) (hidx : (currentMsg m d).toInt.tdiv 5 % 2 ^ 8 = 0)
    (hct : ∀ msg, (r.drive 0).answer (bytesOf (velModeInitData.getD row [])) = some msg →
      (decode m d1 0 msg).2.ct = r.cmd.ct) : Ready m d r := by
  obtain ⟨hcur, hlt⟩ := currentMsg_of_first hrow hidx
  have hlo := d.msgCount.le_toInt
  have hhi := d.msgCount.toInt_lt
  have hbmod : (5 - d.msgCount.toInt).bmod 256 = row := by
    rw [← hcur, currentMsg, hn]
    exact (Int8.toInt_ofInt (n := 5 - d.msgCount.toInt)).symm
  have hmsg : d.msgCount.toInt = 5 - row := by
    rw [Int.bmod_def] at hbmod
    split at hbmod
    · omega
    · omega
  by_cases hlast : d.msgCount - 1 = 0
  · -- the reply reads the status word, after the start-up
    have hcount := toInt_of_last hlast
    obtain rfl : row = 4 := by omega
    obtain ⟨msg, hanswer, hstate⟩ := decode_status m (hs1.trans (decide_eq_true hlast)) (r.drive 0)
    exact absurd ((hct msg hanswer).symm.trans (hstate 0)) r.cmd.ct_ne_driState
  · obtain ⟨msg, hanswer⟩ := answer_init (r.drive 0) hlt
    have hspeed := hct msg hanswer
    rw [decode_early m (hs1.trans (decide_eq_false hlast))] at hspeed
    have hne : d.msgCount.toInt ≠ 1 := fun h1 => hlast (Int8.sub_eq_iff_eq_add.mpr (Int8.toInt_inj.mp h1))
    exact .inr (.inr ⟨hn, Waited.targetSpeed_of_ct hspeed.symm, hc, by omega, by omega⟩)

theorem ready_of_served {m : CMileage} {d : CProtocolMingZhiCanopen} {r : Round} (hsane : Sane d)
    (h : inBand.Served m d r) : Ready m d r := by
  obtain ⟨s', frames, heq, hserved⟩ := h
  obtain ⟨hlen, hrx⟩ := sendAll_shape m.numOfWheel heq
  have hle : m.numOfWheel ≤ 4 := numOfWheel_le _
  have hall : ∀ i, i < m.numOfWheel → ∃ f ∈ frames, f.stdId = d.motorRxId i := by
    intro i hi
    obtain ⟨_, f, hf, hid, _⟩ := (hserved i hi).1
    exact ⟨f, hf, hid.trans (congrFun hrx i)⟩
  have hfree : ∀ f ∈ frames, f.stdId ≠ 0x610 := by
    intro f hf hid
    obtain ⟨i, hi, hfi⟩ := addressed_of_all hlen (fun i j hi hj => hsane.distinct i j (by omega) (by omega)) hall f hf
    exact hsane.free i (by omega) (hfi.symm.trans hid)
  cases hs : d.isInitSend with
  | true => exact .inr (.inl hs)
  | false =>
    cases hn : m.numOfWheel with
    | zero => exact .inl hn
    | succ k =>
      rw [hn] at heq
      obtain ⟨d1, f, rest, he, hrest, rfl⟩ := InBand.sendAll_cons heq
      obtain ⟨hrx1, hcase⟩ := startUp_cases ((encode_early hs 0 _ _ _).symm.trans he)
      rcases hcase with ⟨_, h610, _⟩ | ⟨hc, hc1, hs1, row, idx, hrow, hidx, hidx4, rfl⟩
      · exact absurd h610 (hfree f List.mem_cons_self)
      · cases k with
        | zero =>
          obtain ⟨rfl, rfl⟩ := Prod.mk.inj (Option.some.inj hrest)
          obtain ⟨g, hg, hg0⟩ := hall 0 (by omega)
          obtain rfl := List.mem_singleton.mp hg
          obtain rfl : idx = 0 := hsane.distinct idx 0 hidx4 (by decide) hg0
          exact ready_of_one hn hc hs1 hrow hidx fun msg hmsg =>
            (hserved 0 (by omega)).2 0 msg ⟨_, List.mem_cons_self, congrFun hrx1.symm 0, hmsg⟩
        | succ k =>
          cases hs1' : d1.isInitSend with
          | false =>
            -- the next frame goes to 0x610
            obtain ⟨d2, f2, rest2, he2, _, rfl⟩ := InBand.sendAll_cons hrest
            obtain ⟨_, hcase2⟩ := startUp_cases ((encode_early hs1' 1 _ _ _).symm.trans he2)
            rcases hcase2 with ⟨_, h610, _⟩ | ⟨hc2, _⟩
            · exact absurd h610 (hfree f2 (List.mem_cons_of_mem _ List.mem_cons_self))
            · omega
          | true =>
            -- the last frame was to the last motor, the commands are to the others but the first
            have hlast := of_decide_eq_true (hs1.symm.trans hs1')
            have hend := currentMsg_of_last hlast (by omega) hle hidx
            obtain ⟨rest', heq', _, hids, _⟩ := sendAll_late m r hs1' (k + 1) 1
            obtain ⟨_, rfl⟩ := Prod.mk.inj (Option.some.inj (heq'.symm.trans hrest))
            obtain ⟨g, hg, hg0⟩ := hall 0 (by omega)
            rcases List.mem_cons.mp hg with rfl | hg
            · have hzero := hsane.distinct idx 0 hidx4 (by decide) hg0
              omega
            · obtain ⟨j, hj, hgj⟩ := hids g hg
              rw [hrx1] at hgj
              have hzero := hsane.distinct 0 (1 + j) (by decide) (by omega) (hg0.symm.trans hgj)
              omega

end CProtocolMingZhiCanopen

end SeerDIOBoard.Can
