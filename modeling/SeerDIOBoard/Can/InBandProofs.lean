/-
  SeerDIOBoard.Can.InBandProofs — which rounds Delta and HLS serve.

  `decode` answers the task's wait with a speed command as long as `isInitSend` is false,
  and with what the frame says afterwards, where the acknowledgement of a start-up frame
  says nothing. So a round is at odds with the start-up when the task waits for a position,
  or when the start-up ends in the middle of the round.

  `Sent` is what the loop over the wheels sends; `served_iff` reads off it the rounds that
  are served (`Ready`): the start-up is over, or all its frames are sent, or a speed is asked for
  and only start-up frames go out.
-/

import Mathlib.Data.List.GetD
import SeerDIOBoard.Can.Rounds

namespace SeerDIOBoard.Can

open Lib.Bytes SeerDIOBoard.Mileage

/-! ## Replies -/

theorem Drive.answer_write (d : Drive) {req : Nat → UInt8} (h : req 0 >>> 5 = 1) :
    d.answer req = some { chId := d.chId, cmData := bytesOf [0x60, req 1, req 2, req 3, 0, 0, 0, 0] } := if_pos h

theorem Drive.answer_read (d : Drive) {req : Nat → UInt8} (h : req 0 >>> 5 = 2) :
    d.answer req = some { chId := d.chId, cmData := bytesOf (uploadData d.value req) } := by
  unfold Drive.answer
  rw [if_neg (by rw [h]; decide), if_pos h]

theorem not_head {pat : List UInt8} {data : Nat → UInt8} (h : pat.getD 0 0 ≠ data 0) : ¬ Head pat data :=
  fun hh => h (hh 0 (by decide))

theorem head_of_bytes {a b c d : UInt8} {data : Nat → UInt8} (h0 : a = data 0) (h1 : b = data 1) (h2 : c = data 2)
    (h3 : d = data 3) : Head [a, b, c, d] data := by
  intro i hi
  obtain rfl | rfl | rfl | rfl : i = 0 ∨ i = 1 ∨ i = 2 ∨ i = 3 := by omega
  · exact h0
  · exact h1
  · exact h2
  · exact h3

/-! ## Delta and HLS -/

namespace InBandDriver

/-- The two tables: the start-up frames are writes, and none of them to the target speed. -/
structure StartsUp (t : InBandTable) : Prop where
  targetSpeedData : t.targetSpeedData = [0x60, 0xff, 0x60]
  pos : ∃ b, b ≠ 0x41 ∧ t.posRequest = [0x40, b, 0x60] ∧ t.acturalPosData = [0x43, b, 0x60, 0x00]
  errCodeData : t.errCodeData = [0x4B, 0x41, 0x60, 0x00]
  initData : ∀ row ∈ t.initData, row.getD 0 0 >>> 5 = 1 ∧ row.getD 1 0 ≠ 0xff

theorem startsUp_delta : StartsUp CProtocolDeltaCANOpen.table :=
  ⟨rfl, ⟨0x64, by decide, rfl, rfl⟩, rfl, by decide⟩

theorem startsUp_hls : StartsUp CProtocolHlsCANOpen.table := ⟨rfl, ⟨0x63, by decide, rfl, rfl⟩, rfl, by decide⟩

variable {t : InBandTable}

def InitFrame (t : InBandTable) (data : Nat → UInt8) : Prop := ∃ row ∈ t.initData, data = bytesOf row

def CommandFrame (t : InBandTable) (cmd : Waited) (data : Nat → UInt8) : Prop :=
  ∃ speedVal old, data = encodeRequest t.posRequest cmd.ct speedVal old

/-- The reply to a command is that command, once the start-up is over. -/
theorem decode_command (ht : StartsUp t) {d : InBandDriver} (hinit : d.isInitSend = true) {cmd : Waited}
    {data : Nat → UInt8} (h : CommandFrame t cmd data) (dr : Drive) :
    ∃ msg, dr.answer data = some msg ∧ ∀ val, (decode t d val msg).ct = cmd.ct := by
  obtain ⟨b, hb, hreq, hpos⟩ := ht.pos
  obtain ⟨speedVal, old, rfl⟩ := h
  have hnot : ¬ false = d.isInitSend := by rw [hinit]; exact Bool.noConfusion
  cases cmd with
  | targetSpeed =>
    refine ⟨_, dr.answer_write (show (0x23 : UInt8) >>> 5 = 1 by decide), fun val => ?_⟩
    rw [decode, if_neg hnot, ht.targetSpeedData]
    rfl
  | acturalPos =>
    have hdata : encodeRequest t.posRequest Waited.acturalPos.ct speedVal old =
        setBytes old 0 [0x40, b, 0x60, 0, 0, 0, 0, 0] := by rw [hreq]; rfl
    rw [hdata]
    refine ⟨_, dr.answer_read (show (0x40 : UInt8) >>> 5 = 2 by decide), fun val => ?_⟩
    have hup : uploadData dr.value (setBytes old 0 [0x40, b, 0x60, 0, 0, 0, 0, 0]) =
        [0x43, b, 0x60, 0] ++ leBytes 4 dr.value.toNat := if_neg fun h => hb h.1
    rw [decode, if_neg hnot, hpos, hup]
    refine congrArg Decoded.ct (decodeWith_pos val (not_ack _ ?_ rfl) (head_of_bytes rfl rfl rfl rfl))
    rw [ht.targetSpeedData]
    decide

/-- The acknowledgement of a start-up frame: nothing `decode` knows, once the start-up is over. -/
theorem decode_init (ht : StartsUp t) {d : InBandDriver} {data : Nat → UInt8} (h : InitFrame t data) (dr : Drive) :
    ∃ msg, dr.answer data = some msg ∧
      ∀ val, (decode t d val msg).ct = if d.isInitSend then .undefined else .targetSpeed := by
  obtain ⟨row, hrow, rfl⟩ := h
  obtain ⟨hwrite, hidx⟩ := ht.initData row hrow
  refine ⟨_, dr.answer_write hwrite, fun val => ?_⟩
  cases hd : d.isInitSend with
  | false =>
    rw [decode, if_pos hd.symm]
    rfl
  | true =>
    obtain ⟨b, _, _, hpos⟩ := ht.pos
    rw [decode, if_neg (by rw [hd]; exact Bool.noConfusion), ht.targetSpeedData, ht.errCodeData, hpos]
    refine congrArg Decoded.ct (decodeWith_other val ?_ (not_head ?_) (not_head ?_))
    · rw [List.any_cons, List.any_nil, Bool.or_false, Bool.eq_false_iff]
      intro hcmp
      have h1 := List.all_eq_true.mp hcmp 1 (by decide)
      exact hidx (beq_iff_eq.mp h1).symm
    · exact show (0x43 : UInt8) ≠ 0x60 by decide
    · exact show (0x4B : UInt8) ≠ 0x60 by decide

/-- What one `encode` does: a start-up frame while there are some left, else the command. -/
theorem encode_cases (t : InBandTable) (m : CMileage) (d : InBandDriver) (i : Nat) (cmd : Waited) (val : Int)
    (msg : StdTxMsg) :
    (encode t m d i cmd.ct val msg).2.stdId = d.motorRxId i ∧
      (encode t m d i cmd.ct val msg).1.motorRxId = d.motorRxId ∧
      (d.isInitSend = false ∧ d.msgCount < m.numOfWheel * t.initData.length ∧
          (encode t m d i cmd.ct val msg).1.isInitSend = false ∧
          (encode t m d i cmd.ct val msg).1.msgCount = d.msgCount + 1 ∧
          InitFrame t (encode t m d i cmd.ct val msg).2.data ∨
        (d.isInitSend = true ∨ m.numOfWheel * t.initData.length ≤ d.msgCount) ∧
          (encode t m d i cmd.ct val msg).1.isInitSend = true ∧
          CommandFrame t cmd (encode t m d i cmd.ct val msg).2.data) := by
  unfold encode
  by_cases hs : false = d.isInitSend
  · rw [if_pos hs]
    by_cases hc : d.msgCount < m.numOfWheel * t.initData.length
    · rw [if_pos hc]
      refine ⟨rfl, rfl, .inl ⟨hs.symm, hc, hs.symm, rfl, _, ?_, rfl⟩⟩
      have hlt : d.msgCount / m.numOfWheel < t.initData.length := Nat.div_lt_of_lt_mul hc
      rw [List.getD_eq_getElem _ _ hlt]
      exact List.getElem_mem hlt
    · rw [if_neg hc]
      exact ⟨rfl, rfl, .inr ⟨.inr (Nat.le_of_not_lt hc), rfl, _, _, rfl⟩⟩
  · rw [if_neg hs]
    have hs : d.isInitSend = true := by simpa using hs
    exact ⟨rfl, rfl, .inr ⟨.inl hs, hs, _, _, rfl⟩⟩

/-- What the loop over `k` wheels from wheel `i` on sends. -/
structure Sent (t : InBandTable) (m : CMileage) (cmd : Waited) (d : InBandDriver) (i k : Nat) (d' : InBandDriver)
    (frames : List StdTxMsg) : Prop where
  rxId : d'.motorRxId = d.motorRxId
  addressed : ∀ j, j < k → ∃ f ∈ frames, f.stdId = d.motorRxId (i + j)
  kind : ∀ f ∈ frames, InitFrame t f.data ∨ CommandFrame t cmd f.data
  commands : d.isInitSend = true ∨ m.numOfWheel * t.initData.length ≤ d.msgCount →
    (0 < k → d'.isInitSend = true) ∧ ∀ f ∈ frames, CommandFrame t cmd f.data
  early : d.isInitSend = false → d.msgCount + k ≤ m.numOfWheel * t.initData.length → d'.isInitSend = false
  late : d.isInitSend = false → 0 < k → d'.isInitSend = false → d.msgCount + k ≤ m.numOfWheel * t.initData.length
  first : d.isInitSend = false → d.msgCount < m.numOfWheel * t.initData.length → 0 < k →
    ∃ f ∈ frames, f.stdId = d.motorRxId i ∧ InitFrame t f.data

theorem Sent.nil (t : InBandTable) (m : CMileage) (cmd : Waited) (d : InBandDriver) (i : Nat) :
    Sent t m cmd d i 0 d [] where
  rxId := rfl
  addressed j hj := absurd hj (Nat.not_lt_zero j)
  kind _ hf := absurd hf List.not_mem_nil
  commands _ := ⟨fun h => absurd h (Nat.lt_irrefl 0), fun _ hf => absurd hf List.not_mem_nil⟩
  early h _ := h
  late _ h := absurd h (Nat.lt_irrefl 0)
  first _ _ h := absurd h (Nat.lt_irrefl 0)

variable {m : CMileage} {cmd : Waited} {d d1 d' : InBandDriver} {i k : Nat} {f : StdTxMsg} {frames : List StdTxMsg}

theorem Sent.addressed_cons (h : Sent t m cmd d1 (i + 1) k d' frames) (hrx : d1.motorRxId = d.motorRxId)
    (hid : f.stdId = d.motorRxId i) (j : Nat) (hj : j < k + 1) :
    ∃ g ∈ f :: frames, g.stdId = d.motorRxId (i + j) := by
  cases j with
  | zero => exact ⟨f, List.mem_cons_self, hid⟩
  | succ j =>
    obtain ⟨g, hg, hgid⟩ := h.addressed j (Nat.lt_of_succ_lt_succ hj)
    refine ⟨g, List.mem_cons_of_mem f hg, ?_⟩
    rw [hgid, hrx, Nat.add_assoc, Nat.add_comm 1 j]

/-- A start-up frame first. -/
theorem Sent.cons_init (h : Sent t m cmd d1 (i + 1) k d' frames) (hrx : d1.motorRxId = d.motorRxId)
    (hid : f.stdId = d.motorRxId i) (hs : d.isInitSend = false) (hlt : d.msgCount < m.numOfWheel * t.initData.length)
    (hs1 : d1.isInitSend = false) (hcount : d1.msgCount = d.msgCount + 1) (hf : InitFrame t f.data) :
    Sent t m cmd d i (k + 1) d' (f :: frames) where
  rxId := h.rxId.trans hrx
  addressed := h.addressed_cons hrx hid
  kind g hg := by
    rcases List.mem_cons.mp hg with rfl | hg
    · exact .inl hf
    · exact h.kind g hg
  commands hdone := absurd hlt (Nat.not_lt.mpr (hdone.resolve_left (Bool.eq_false_iff.mp hs)))
  early _ hle := h.early hs1 (by rw [hcount]; omega)
  late _ _ hd' := by
    cases k with
    | zero => exact hlt
    | succ k =>
      have hle := h.late hs1 (Nat.succ_pos k) hd'
      rw [hcount] at hle
      omega
  first _ _ _ := ⟨f, List.mem_cons_self, hid, hf⟩

/-- The command first: so are all that follow. -/
theorem Sent.cons_command (h : Sent t m cmd d1 (i + 1) k d' frames) (hrx : d1.motorRxId = d.motorRxId)
    (hid : f.stdId = d.motorRxId i) (hdone : d.isInitSend = true ∨ m.numOfWheel * t.initData.length ≤ d.msgCount)
    (hs1 : d1.isInitSend = true) (hf : CommandFrame t cmd f.data) (hnil : k = 0 → d' = d1) :
    Sent t m cmd d i (k + 1) d' (f :: frames) := by
  have hd' : d'.isInitSend = true := by
    cases k with
    | zero => rw [hnil rfl, hs1]
    | succ k => exact (h.commands (.inl hs1)).1 (Nat.succ_pos k)
  have hall : ∀ g ∈ f :: frames, CommandFrame t cmd g.data := by
    intro g hg
    rcases List.mem_cons.mp hg with rfl | hg
    · exact hf
    · exact (h.commands (.inl hs1)).2 g hg
  have hge : d.isInitSend = false → m.numOfWheel * t.initData.length ≤ d.msgCount := fun hs =>
    hdone.resolve_left (Bool.eq_false_iff.mp hs)
  exact
    { rxId := h.rxId.trans hrx
      addressed := h.addressed_cons hrx hid
      kind := fun g hg => .inr (hall g hg)
      commands := fun _ => ⟨fun _ => hd', hall⟩
      early := fun hs hle => absurd (hge hs) (by omega)
      late := fun _ _ hfalse => by rw [hd'] at hfalse; cases hfalse
      first := fun hs hlt _ => absurd hlt (Nat.not_lt.mpr (hge hs)) }

theorem sendAll_sent (t : InBandTable) (getInitMsg : CMileage → InBandDriver → Bool × InBandDriver) (m : CMileage)
    (r : Round) (k : Nat) :
    ∀ (i : Nat) (d : InBandDriver), ∃ d' frames, (inBand t getInitMsg).sendAll m r k i d = some (d', frames) ∧
      Sent t m r.cmd d i k d' frames := by
  induction k with
  | zero => exact fun i d => ⟨d, [], rfl, Sent.nil t m r.cmd d i⟩
  | succ k ih =>
    intro i d
    obtain ⟨hid, hrx, hcase⟩ := encode_cases t m d i r.cmd (r.val i) (r.txMessage i)
    obtain ⟨d', frames, heq, hsent⟩ := ih (i + 1) (encode t m d i r.cmd.ct (r.val i) (r.txMessage i)).1
    have hnil : k = 0 → d' = (encode t m d i r.cmd.ct (r.val i) (r.txMessage i)).1 := by
      intro heq
      subst heq
      exact (Prod.mk.inj (Option.some.inj heq)).1.symm
    refine ⟨d', (encode t m d i r.cmd.ct (r.val i) (r.txMessage i)).2 :: frames, ?_, ?_⟩
    · rw [InBand.sendAll]
      exact congrArg (Option.map _) heq
    · rcases hcase with ⟨hs, hlt, hs1, hcount, hf⟩ | ⟨hdone, hs1, hf⟩
      · exact hsent.cons_init hrx hid hs hlt hs1 hcount hf
      · exact hsent.cons_command hrx hid hdone hs1 hf hnil

variable {getInitMsg : CMileage → InBandDriver → Bool × InBandDriver}

/-- The rounds Delta and HLS serve. -/
def Ready (t : InBandTable) (m : CMileage) (d : InBandDriver) (r : Round) : Prop :=
  m.numOfWheel = 0 ∨ d.isInitSend = true ∨ m.numOfWheel * t.initData.length ≤ d.msgCount ∨
    r.cmd = .targetSpeed ∧ d.msgCount + m.numOfWheel ≤ m.numOfWheel * t.initData.length

theorem served_of_ready (ht : StartsUp t) {m : CMileage} {d : InBandDriver} {r : Round} (h : Ready t m d r) :
    (inBand t getInitMsg).Served m d r := by
  obtain ⟨d', frames, heq, hsent⟩ := sendAll_sent t getInitMsg m r m.numOfWheel 0 d
  refine ⟨d', frames, heq, fun i hi => ?_⟩
  have hpos : 0 < m.numOfWheel := Nat.lt_of_le_of_lt (Nat.zero_le i) hi
  have hframe : ∀ f ∈ frames, ∀ dr : Drive, ∃ msg, dr.answer f.data = some msg ∧
      ∀ val, (decode t d' val msg).ct = r.cmd.ct := by
    intro f hf dr
    by_cases hdone : d.isInitSend = true ∨ m.numOfWheel * t.initData.length ≤ d.msgCount
    · obtain ⟨hflag, hcmd⟩ := hsent.commands hdone
      exact decode_command ht (hflag hpos) (hcmd f hf) dr
    · obtain ⟨hspeed, hle⟩ : r.cmd = .targetSpeed ∧ d.msgCount + m.numOfWheel ≤ m.numOfWheel * t.initData.length := by
        rcases h with h | h | h | h
        · omega
        · exact absurd (.inl h) hdone
        · exact absurd (.inr h) hdone
        · exact h
      have hs : d.isInitSend = false := Bool.eq_false_iff.mpr fun h => hdone (.inl h)
      have hs' := hsent.early hs hle
      have hct : ∀ val msg, (decode t d' val msg).ct = r.cmd.ct := by
        intro val msg
        rw [decode, if_pos hs'.symm, hspeed]
        rfl
      rcases hsent.kind f hf with hinit | ⟨speedVal, old, hdata⟩
      · obtain ⟨msg, hmsg, _⟩ := decode_init ht (d := d') hinit dr
        exact ⟨msg, hmsg, fun val => hct val msg⟩
      · rw [hspeed] at hdata
        rw [hdata]
        exact ⟨_, dr.answer_write (show (0x23 : UInt8) >>> 5 = 1 by decide), fun val => hct val _⟩
  constructor
  · obtain ⟨f, hf, hid⟩ := hsent.addressed i hi
    obtain ⟨msg, hmsg, _⟩ := hframe f hf (r.drive i)
    refine ⟨msg, f, hf, ?_, hmsg⟩
    show f.stdId = d'.motorRxId i
    rw [hid, hsent.rxId, Nat.zero_add]
  · intro val msg ⟨f, hf, _, hmsg⟩
    obtain ⟨msg', hmsg', hct⟩ := hframe f hf (r.drive i)
    obtain rfl : msg' = msg := Option.some.inj (hmsg'.symm.trans hmsg)
    exact hct val

theorem ready_of_served (ht : StartsUp t) {m : CMileage} {d : InBandDriver} {r : Round}
    (h : (inBand t getInitMsg).Served m d r) : Ready t m d r := by
  obtain ⟨d', frames, heq, hserved⟩ := h
  obtain ⟨d'', frames', heq', hsent⟩ := sendAll_sent t getInitMsg m r m.numOfWheel 0 d
  obtain ⟨rfl, rfl⟩ := Prod.mk.inj (Option.some.inj (heq'.symm.trans heq))
  by_cases hn : m.numOfWheel = 0
  · exact .inl hn
  have hpos : 0 < m.numOfWheel := Nat.pos_of_ne_zero hn
  cases hs : d.isInitSend with
  | true => exact .inr (.inl hs)
  | false =>
    by_cases hlt : d.msgCount < m.numOfWheel * t.initData.length
    · -- the first frame is a start-up frame, so its reply says what `decode` makes of those
      obtain ⟨f, hf, hid, hinit⟩ := hsent.first hs hlt hpos
      obtain ⟨msg, hmsg, hct⟩ := decode_init ht hinit (r.drive 0) (d := d'')
      have hid : f.stdId = d''.motorRxId 0 := by rw [hid, hsent.rxId]
      have hcmd := (hserved 0 hpos).2 0 msg ⟨f, hf, hid, hmsg⟩
      have hcmd : (if d''.isInitSend then MotorDriverCmdType.undefined else .targetSpeed) = r.cmd.ct :=
        (hct 0).symm.trans hcmd
      cases hs' : d''.isInitSend with
      | true =>
        rw [hs'] at hcmd
        exact absurd hcmd.symm r.cmd.ct_ne_undefined
      | false =>
        rw [hs'] at hcmd
        exact .inr (.inr (.inr ⟨Waited.targetSpeed_of_ct hcmd.symm, hsent.late hs hpos hs'⟩))
    · exact .inr (.inr (.inl (Nat.le_of_not_lt hlt)))

theorem served_iff (ht : StartsUp t) (m : CMileage) (d : InBandDriver) (r : Round) :
    (inBand t getInitMsg).Served m d r ↔ Ready t m d r := ⟨ready_of_served ht, served_of_ready ht⟩

end InBandDriver

end SeerDIOBoard.Can
