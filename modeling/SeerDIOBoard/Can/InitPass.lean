/-
  SeerDIOBoard.Can.InitPass — the drivers that start their motors up with `getInitMsg`,
  before any command: `CProtocolKincoCANOpen` and `CProtocolMotecCANOpen`
  (DriverProtocol/). Neither is in the build.

  `CChassisDevice::doInit` writes what `getInitMsg` fills in until it answers false. The
  counter is a static of the function. The first call of all gives it its value, from the
  wheels there are then, and the call that answers false gives it the value for the next
  start-up. Where the wheels have become fewer since, the index is negative and leaves the
  table; where they have become more, the first motors are left out.

  Kinco and Motec are the same code over two tables, but Motec takes every frame for the
  reply to a speed command until `getInitMsg` has filled in its last frame (`isInitSend`;
  Kinco has the variable and does not use it).

  - `start_up_passes`: over every run, which start-ups send every motor its four frames,
    and which rounds are served.
-/

import SeerDIOBoard.Can.InBandProofs

namespace SeerDIOBoard.Can

open Function (update)
open Lib.Bytes Lib.Machine Lib.Round SeerDIOBoard.Mileage

/-! ## The start-up -/

structure PassTable where
  initData : List (List UInt8)
  /-- `getInitMsg` sets `isInitSend` with its last frame. -/
  marks : Bool

structure PassDriver where
  isInitSend : Bool
  /-- The static of `getInitMsg`, `none` before its first call. It is an `int8_t`, and at
      most 16. -/
  msgCount : Option Nat
  motorRxId : Nat → Nat

namespace PassDriver

def initMsgCounts : Nat := 4

/-- The frame that `getInitMsg` fills in at `currentMsg`. -/
def rowFrame (t : PassTable) (d : PassDriver) (currentMsg : Nat) : StdTxMsg where
  stdId := d.motorRxId (currentMsg / initMsgCounts)
  data := bytesOf (t.initData.getD (currentMsg % initMsgCounts) [])

def getInitMsg (t : PassTable) (m : CMileage) (d : PassDriver) : Option (Option StdTxMsg × PassDriver) :=
  let all := m.numOfWheel * initMsgCounts
  let msgCount := d.msgCount.getD all
  if 0 < msgCount then
    if msgCount ≤ all then
      some (some (rowFrame t d (all - msgCount)),
        { d with
          msgCount := some (msgCount - 1)
          isInitSend := d.isInitSend || t.marks && msgCount - 1 == 0 })
    else none
  else some (none, { d with msgCount := some all })

/-- The loop of `doInit`, for `k` calls at most, and what it writes. -/
def sendInit (t : PassTable) (m : CMileage) : Nat → PassDriver → Option (List StdTxMsg × PassDriver)
  | 0, _ => none
  | k + 1, d =>
    match getInitMsg t m d with
    | none => none
    | some (none, d) => some ([], d)
    | some (some f, d) => (sendInit t m k d).map fun r => (f :: r.1, r.2)

/-- More calls than the loop ever makes. -/
def calls : Nat := 17

/-- Every row for every motor, motor after motor. -/
def allRows (t : PassTable) (d : PassDriver) (n : Nat) : List StdTxMsg :=
  (List.range n).flatMap fun i => t.initData.map fun row => { stdId := d.motorRxId i, data := bytesOf row }

/-- The counter as the next call finds it. -/
def count (m : CMileage) (d : PassDriver) : Nat := d.msgCount.getD (m.numOfWheel * initMsgCounts)

theorem getInitMsg_row (t : PassTable) {m : CMileage} {d : PassDriver} {c : Nat} (hc : count m d = c + 1)
    (hle : c + 1 ≤ m.numOfWheel * initMsgCounts) :
    getInitMsg t m d = some (some (rowFrame t d (m.numOfWheel * initMsgCounts - (c + 1))),
      { d with msgCount := some c, isInitSend := d.isInitSend || t.marks && c == 0 }) := by
  unfold count at hc
  simp only [getInitMsg, hc, Nat.succ_pos, if_true, hle, Nat.add_sub_cancel]

theorem getInitMsg_end (t : PassTable) {m : CMileage} {d : PassDriver} (hc : count m d = 0) :
    getInitMsg t m d = some (none, { d with msgCount := some (m.numOfWheel * initMsgCounts) }) := by
  unfold count at hc
  simp only [getInitMsg, hc, Nat.lt_irrefl, if_false]

/-- The rows from the counter on, in turn. -/
theorem sendInit_rows (t : PassTable) {m : CMileage} (c : Nat) : ∀ {d : PassDriver} {k : Nat}, count m d = c → c < k →
    c ≤ m.numOfWheel * initMsgCounts →
    sendInit t m k d = some ((List.range' (m.numOfWheel * initMsgCounts - c) c).map (rowFrame t d),
      { d with
        msgCount := some (m.numOfWheel * initMsgCounts)
        isInitSend := d.isInitSend || t.marks && decide (0 < c) }) := by
  induction c with
  | zero =>
    intro d k hc hk _
    obtain ⟨k, rfl⟩ := Nat.exists_eq_succ_of_ne_zero (by omega : k ≠ 0)
    rw [sendInit, getInitMsg_end t hc]
    simp
  | succ c ih =>
    intro d k hc hk hle
    obtain ⟨k, rfl⟩ := Nat.exists_eq_succ_of_ne_zero (by omega : k ≠ 0)
    rw [sendInit, getInitMsg_row t hc hle]
    dsimp only
    rw [ih (d := { d with msgCount := some c, isInitSend := d.isInitSend || t.marks && c == 0 }) rfl (by omega) (by omega),
      Option.map_some, List.range'_succ, List.map_cons,
      show m.numOfWheel * initMsgCounts - (c + 1) + 1 = m.numOfWheel * initMsgCounts - c by omega]
    have hmark : (d.isInitSend || t.marks && c == 0 || t.marks && decide (0 < c)) =
        (d.isInitSend || t.marks && decide (0 < c + 1)) := by
      cases c with
      | zero => simp
      | succ c => simp
    dsimp only
    rw [hmark]
    rfl

theorem sendInit_leaves (t : PassTable) {m : CMileage} {d : PassDriver} (h : m.numOfWheel * initMsgCounts < count m d)
    (k : Nat) : sendInit t m k d = none := by
  unfold count at h
  cases k with
  | zero => rfl
  | succ k =>
    have hnone : getInitMsg t m d = none := by
      simp only [getInitMsg]
      rw [if_pos (by omega), if_neg (by omega)]
    rw [sendInit, hnone]

theorem count_eq_iff {m : CMileage} {d : PassDriver} {wheels : Option Nat} (h : d.msgCount = wheels.map (· * initMsgCounts)) :
    count m d = m.numOfWheel * initMsgCounts ↔ wheels = none ∨ wheels = some m.numOfWheel := by
  unfold count
  cases wheels with
  | none => simp [h]
  | some n => simp [h, initMsgCounts]

/-- Frame by frame is motor after motor, row after row. -/
theorem rowFrames_all {t : PassTable} (ht : t.initData.length = initMsgCounts) (d : PassDriver) (n : Nat) :
    (List.range' 0 (n * initMsgCounts)).map (rowFrame t d) = allRows t d n := by
  induction n with
  | zero => rfl
  | succ n ih =>
    have hrows : (List.range' (0 + n * initMsgCounts) initMsgCounts).map (rowFrame t d) =
        t.initData.map fun row => { stdId := d.motorRxId n, data := bytesOf row } := by
      refine List.ext_getElem (by simp [ht]) ?_
      intro i hi hi'
      have hi4 : i < initMsgCounts := by simpa using hi
      have hdiv : (0 + n * initMsgCounts + 1 * i) / initMsgCounts = n := by unfold initMsgCounts at hi4 ⊢; omega
      have hmod : (0 + n * initMsgCounts + 1 * i) % initMsgCounts = i := by unfold initMsgCounts at hi4 ⊢; omega
      rw [List.getElem_map, List.getElem_map, List.getElem_range', rowFrame, hdiv, hmod,
        List.getD_eq_getElem _ _ (by rw [ht]; exact hi4)]
    rw [Nat.succ_mul, ← List.range'_append_1, List.map_append, ih, hrows, allRows, allRows, List.range_succ,
      List.flatMap_append, List.flatMap_singleton]

/-- The start-up sends every motor every row, and comes to its end. -/
def Complete (t : PassTable) (m : CMileage) (d : PassDriver) : Prop :=
  ∃ d', sendInit t m calls d = some (allRows t d m.numOfWheel, d')

theorem complete_iff {t : PassTable} (ht : t.initData.length = initMsgCounts) {m : CMileage} {d : PassDriver} :
    Complete t m d ↔ count m d = m.numOfWheel * initMsgCounts := by
  have hall := rowFrames_all ht d m.numOfWheel
  have hle : m.numOfWheel ≤ 4 := numOfWheel_le m.chassisType
  constructor
  · rintro ⟨d', h⟩
    by_cases hc : count m d ≤ m.numOfWheel * initMsgCounts
    · rw [sendInit_rows t _ rfl (by unfold calls; unfold initMsgCounts at hc; omega) hc] at h
      have hframes := congrArg List.length (Prod.mk.inj (Option.some.inj h)).1
      rw [← hall, List.length_map, List.length_map, List.length_range', List.length_range'] at hframes
      exact hframes
    · rw [sendInit_leaves t (by omega)] at h
      cases h
  · intro hc
    have hrows := sendInit_rows t _ hc (k := calls) (by unfold calls initMsgCounts; omega) (Nat.le_refl _)
    rw [Nat.sub_self, hall] at hrows
    exact ⟨_, hrows⟩

/-- `setMotorRxId` for every wheel there is, in the constructors. -/
def setIds (m : CMileage) (d : PassDriver) : PassDriver :=
  { d with motorRxId := fun i => if i < m.numOfWheel then 0x601 + i else d.motorRxId i }

end PassDriver

/-! ## Kinco and Motec -/

namespace CProtocolKincoCANOpen

def posModeInitData : List (List UInt8) :=
  [[0x2F, 0x60, 0x60, 0x00, 0x03, 0x00, 0x00, 0x00],
    [0x2B, 0x40, 0x60, 0x00, 0x0F, 0x00, 0x00, 0x00],
    [0x2B, 0x40, 0x60, 0x00, 0x2F, 0x00, 0x00, 0x00],
    [0x2B, 0x40, 0x60, 0x00, 0x3F, 0x00, 0x00, 0x00]]

def table : PassTable := ⟨posModeInitData, false⟩

def posModeTargetSpeedData : List UInt8 := [0x60, 0xff, 0x60]
def acturalPosData : List UInt8 := [0x43, 0x63, 0x60, 0x00]
def errCodeData : List UInt8 := [0x4B, 0x41, 0x60, 0x00]

def construct (m : CMileage) (d : PassDriver) : PassDriver := d.setIds m

def getInitMsg := PassDriver.getInitMsg table

/-- In exact rationals; the code computes it in `float`. -/
def speedVal (val : Int) : Int :=
  let t : ℚ := if 0 ≤ val then 1 else -1
  trunc (val * (16384 / 10000) + t * (1 / 2))

def encode (d : PassDriver) (motorIdx : Nat) (ct : MotorDriverCmdType) (val : Int) (msg : StdTxMsg) : StdTxMsg where
  stdId := d.motorRxId motorIdx
  data := encodeRequest [0x40, 0x63, 0x60] ct (speedVal val) msg.data

/-- `memcmp(KINCO_CAN_POS_MODE_TARGET_SPEED_DATA, msg.Data, 3) == 0`. -/
def isSpeedAck (data : Nat → UInt8) : Bool := (List.range 3).all fun i => posModeTargetSpeedData.getD i 0 == data i

def decode (val : Int) (msg : CanMsg) : Decoded :=
  if isSpeedAck msg.cmData then ⟨true, .targetSpeed, val⟩ else decodeWith [] acturalPosData errCodeData val msg

/-- The object as a round of the chassis task finds it. -/
def inBand : InBand PassDriver where
  encode _ d i ct val msg := some (d, encode d i ct val msg)
  decode _ d val msg := (d, decode val msg)
  motorRxId := PassDriver.motorRxId
  op m d
    | .construct => construct m d
    | .getInitMsg => ((getInitMsg m d).map (·.2)).getD d
    | .setMotorRxId idx id => { d with motorRxId := update d.motorRxId idx id }
    | .decode _ _ => d
    | .parseErrCode _ => d
  decode_keeps _ _ _ _ _ := rfl

end CProtocolKincoCANOpen

namespace CProtocolMotecCANOpen

def posModeInitData : List (List UInt8) :=
  [[0x2B, 0x60, 0x60, 0x00, 0x03, 0x00, 0x00, 0x00],
    [0x2B, 0x40, 0x60, 0x00, 0x86, 0x00, 0x00, 0x00],
    [0x2B, 0x40, 0x60, 0x00, 0x07, 0x00, 0x00, 0x00],
    [0x2B, 0x40, 0x60, 0x00, 0x0F, 0x00, 0x00, 0x00]]

def table : PassTable := ⟨posModeInitData, true⟩

def posModeTargetSpeedData : List UInt8 := [0x60, 0xff, 0x60]
def acturalPosData : List UInt8 := [0x43, 0x63, 0x60, 0x00]
def errCodeData : List UInt8 := [0x4B, 0x41, 0x60, 0x00]

def construct (m : CMileage) (d : PassDriver) : PassDriver := { d.setIds m with isInitSend := false }

def getInitMsg := PassDriver.getInitMsg table

/-- In exact rationals; the code computes it in `float`. -/
def speedVal (m : CMileage) (val : Int) : Int :=
  let t : ℚ := if 0 ≤ val then 1 else -1
  trunc (val * 6 / (4 * m.encoderLines) + t * (1 / 2))

/-- The speed command is a write of two bytes (0x2B). -/
def encode (m : CMileage) (d : PassDriver) (motorIdx : Nat) (ct : MotorDriverCmdType) (val : Int) (msg : StdTxMsg) :
    StdTxMsg where
  stdId := d.motorRxId motorIdx
  data :=
    match ct with
    | .targetSpeed => setBytes (setBytes msg.data 0 [0x2B, 0xff, 0x60, 0x00]) 4 (leBytes 4 (speedVal m val))
    | _ => encodeRequest [0x40, 0x63, 0x60] ct 0 msg.data

def decode (d : PassDriver) (val : Int) (msg : CanMsg) : Decoded :=
  if false = d.isInitSend then ⟨true, .targetSpeed, 0⟩
  else { decodeWith [posModeTargetSpeedData] acturalPosData errCodeData val msg with ok := true }

def inBand : InBand PassDriver where
  encode m d i ct val msg := some (d, encode m d i ct val msg)
  decode _ d val msg := (d, decode d val msg)
  motorRxId := PassDriver.motorRxId
  op m d
    | .construct => construct m d
    | .getInitMsg => ((getInitMsg m d).map (·.2)).getD d
    | .setMotorRxId idx id => { d with motorRxId := update d.motorRxId idx id }
    | .decode _ _ => d
    | .parseErrCode _ => d
  decode_keeps _ _ _ _ _ := rfl

end CProtocolMotecCANOpen

/-! ## Rounds -/

namespace InBand

variable {σ : Type} {b : InBand σ} {m : CMileage} {s : σ} {r : Round} {frame : Nat → StdTxMsg}

/-- A driver that `encode` leaves as it is sends a frame to each wheel. -/
theorem sendAll_still (hsend : ∀ i, b.encode m s i r.cmd.ct (r.val i) (r.txMessage i) = some (s, frame i)) (k : Nat) :
    ∀ i, b.sendAll m r k i s = some (s, (List.range' i k).map frame) := by
  induction k with
  | zero => exact fun i => rfl
  | succ k ih =>
    intro i
    rw [sendAll, hsend i]
    dsimp only
    rw [ih (i + 1), List.range'_succ, List.map_cons]
    rfl

/-- Where every reply is taken for the same command `ct`, a round is served that waits for it. -/
theorem served_iff_of_still (hsend : ∀ i, b.encode m s i r.cmd.ct (r.val i) (r.txMessage i) = some (s, frame i))
    (hid : ∀ i, (frame i).stdId = b.motorRxId s i) {ct : MotorDriverCmdType}
    (hreply : ∀ i (dr : Drive), ∃ msg, dr.answer (frame i).data = some msg ∧ ∀ val, (b.decode m s val msg).2.ct = ct) :
    b.Served m s r ↔ m.numOfWheel = 0 ∨ ct = r.cmd.ct := by
  have hall := sendAll_still hsend m.numOfWheel 0
  have hct : ∀ {i msg}, b.Reply r s ((List.range' 0 m.numOfWheel).map frame) i msg →
      ∀ val, (b.decode m s val msg).2.ct = ct := by
    rintro i msg ⟨f, hf, -, hmsg⟩ val
    obtain ⟨j, -, rfl⟩ := List.mem_map.mp hf
    obtain ⟨msg', hmsg', hval⟩ := hreply j (r.drive i)
    obtain rfl := Option.some.inj (hmsg.symm.trans hmsg')
    exact hval val
  have hsome : ∀ i, i < m.numOfWheel → ∃ msg, b.Reply r s ((List.range' 0 m.numOfWheel).map frame) i msg := by
    intro i hi
    obtain ⟨msg, hmsg, -⟩ := hreply i (r.drive i)
    have hmem : i ∈ List.range' 0 m.numOfWheel := List.mem_range'_1.mpr ⟨Nat.zero_le i, by omega⟩
    exact ⟨msg, frame i, List.mem_map.mpr ⟨i, hmem, rfl⟩, hid i, hmsg⟩
  constructor
  · rintro ⟨s', frames, heq, hserved⟩
    obtain ⟨rfl, rfl⟩ := Prod.mk.inj (Option.some.inj (hall.symm.trans heq))
    by_cases hn : m.numOfWheel = 0
    · exact Or.inl hn
    · obtain ⟨msg, hmsg⟩ := hsome 0 (by omega)
      exact Or.inr ((hct hmsg 0).symm.trans ((hserved 0 (by omega)).2 0 msg hmsg))
  · intro h
    refine ⟨s, _, hall, ?_⟩
    intro i hi
    refine ⟨hsome i hi, ?_⟩
    intro val msg hmsg
    rcases h with hn | hcmd
    · omega
    · exact (hct hmsg val).trans hcmd

end InBand

theorem answer_speed (dr : Drive) {data : Nat → UInt8} (h : data 0 >>> 5 = 1) (h1 : data 1 = 0xff) (h2 : data 2 = 0x60)
    (h3 : data 3 = 0) :
    dr.answer data = some { chId := dr.chId, cmData := bytesOf [0x60, 0xff, 0x60, 0, 0, 0, 0, 0] } := by
  rw [dr.answer_write h, h1, h2, h3]

theorem answer_position (dr : Drive) (speedVal : Int) (data : Nat → UInt8) :
    dr.answer (encodeRequest [0x40, 0x63, 0x60] .acturalPos speedVal data) =
      some { chId := dr.chId, cmData := bytesOf ([0x43, 0x63, 0x60, 0x00] ++ leBytes 4 dr.value.toNat) } :=
  dr.answer_read (show (0x40 : UInt8) >>> 5 = 2 by decide)

namespace CProtocolKincoCANOpen

theorem served (m : CMileage) (d : PassDriver) (r : Round) : inBand.Served m d r := by
  have hsend : ∀ i, inBand.encode m d i r.cmd.ct (r.val i) (r.txMessage i) =
      some (d, encode d i r.cmd.ct (r.val i) (r.txMessage i)) := fun _ => rfl
  refine (InBand.served_iff_of_still hsend (fun _ => rfl) ?_).mpr (Or.inr rfl)
  intro i dr
  cases r.cmd with
  | targetSpeed => exact ⟨_, answer_speed dr (show (0x23 : UInt8) >>> 5 = 1 by decide) rfl rfl rfl, fun val => rfl⟩
  | acturalPos =>
    refine ⟨_, answer_position dr 0 _, ?_⟩
    intro val
    have hack : isSpeedAck (bytesOf ([0x43, 0x63, 0x60, 0x00] ++ leBytes 4 dr.value.toNat)) = false := rfl
    show (decode val _).ct = .acturalPos
    rw [decode, hack, if_neg Bool.false_ne_true]
    exact congrArg Decoded.ct (decodeWith_pos val List.any_nil (head_of_bytes rfl rfl rfl rfl))

end CProtocolKincoCANOpen

namespace CProtocolMotecCANOpen

/-- What a reply is taken for. -/
def repliesAs (d : PassDriver) (cmd : Waited) : MotorDriverCmdType := if d.isInitSend then cmd.ct else .targetSpeed

theorem decode_reply (d : PassDriver) (cmd : Waited) (i : Nat) (m : CMileage) (val : Int) (msg : StdTxMsg) (dr : Drive) :
    ∃ reply, dr.answer (encode m d i cmd.ct val msg).data = some reply ∧ ∀ v, (decode d v reply).ct = repliesAs d cmd := by
  have hearly : ∀ v reply, d.isInitSend = false → (decode d v reply).ct = repliesAs d cmd := by
    intro v reply hs
    rw [decode, repliesAs, hs]
    rfl
  cases cmd with
  | targetSpeed =>
    refine ⟨_, answer_speed dr (show (0x2B : UInt8) >>> 5 = 1 by decide) rfl rfl rfl, ?_⟩
    intro v
    cases hs : d.isInitSend with
    | false => exact hearly v _ hs
    | true =>
      rw [decode, repliesAs, hs]
      rfl
  | acturalPos =>
    refine ⟨_, answer_position dr 0 _, ?_⟩
    intro v
    cases hs : d.isInitSend with
    | false => exact hearly v _ hs
    | true =>
      rw [decode, repliesAs, hs]
      exact congrArg Decoded.ct (decodeWith_pos v (not_ack _ (by decide) rfl) (head_of_bytes rfl rfl rfl rfl))

theorem served_iff (m : CMileage) (d : PassDriver) (r : Round) :
    inBand.Served m d r ↔ m.numOfWheel = 0 ∨ r.cmd = .targetSpeed ∨ d.isInitSend = true := by
  have hsend : ∀ i, inBand.encode m d i r.cmd.ct (r.val i) (r.txMessage i) =
      some (d, encode m d i r.cmd.ct (r.val i) (r.txMessage i)) := fun _ => rfl
  have hreply := fun i dr => decode_reply d r.cmd i m (r.val i) (r.txMessage i) dr
  refine (InBand.served_iff_of_still hsend (fun _ => rfl) hreply).trans ?_
  rw [repliesAs]
  cases hs : d.isInitSend with
  | true => simp
  | false =>
    cases r.cmd with
    | targetSpeed => simp [Waited.ct]
    | acturalPos => simp [Waited.ct]

end CProtocolMotecCANOpen

/-! ## Runs -/

/-- A driver and the chassis from the power-up on. -/
structure Powered where
  driver : PassDriver
  mileage : CMileage
  /-- The wheels there were at the last start-up. -/
  wheels : Option Nat
  /-- A start-up has sent something since the object was made. -/
  started : Bool

inductive PassEv where
  | mileage (m : CMileage)
  | construct
  | setMotorRxId (idx id : Nat)
  | doInit
  | round (r : Round)

namespace Powered

/-- `encode` and `decode` leave these objects as they are, so a round does too. A start-up
    that leaves the table keeps the state, where the code reads outside and goes on counting:
    from there a run is that of a board on which this start-up has not been tried. -/
def step (t : PassTable) (construct : CMileage → PassDriver → PassDriver) (s : Powered) : PassEv → Powered
  | .mileage m => { s with mileage := m }
  | .construct => { s with driver := construct s.mileage s.driver, started := false }
  | .setMotorRxId idx id => { s with driver := { s.driver with motorRxId := update s.driver.motorRxId idx id } }
  | .doInit =>
    match PassDriver.sendInit t s.mileage PassDriver.calls s.driver with
    | some (frames, d) =>
      { s with driver := d, wheels := some s.mileage.numOfWheel, started := s.started || !frames.isEmpty }
    | none => s
  | .round _ => s

def powerUp (construct : CMileage → PassDriver → PassDriver) (isInitSend : Bool) (motorRxId : Nat → Nat) (m : CMileage) :
    Powered where
  driver := construct m { isInitSend := isInitSend, msgCount := none, motorRxId := motorRxId }
  mileage := m
  wheels := none
  started := false

def OnInit (P : Powered → Prop) (s : Powered) : PassEv → Prop
  | .doInit => P s
  | _ => True

def OnRound (P : Powered → Round → Prop) (s : Powered) : PassEv → Prop
  | .round r => P s r
  | _ => True

/-- As many wheels as at the last start-up, if there was one. -/
def SameWheels (s : Powered) : Prop := s.wheels = none ∨ s.wheels = some s.mileage.numOfWheel

structure Inv (t : PassTable) (s : Powered) : Prop where
  msgCount : s.driver.msgCount = s.wheels.map (· * PassDriver.initMsgCounts)
  isInitSend : t.marks = true → s.driver.isInitSend = s.started

variable {t : PassTable} {construct : CMileage → PassDriver → PassDriver}

/-- What a constructor does to what the start-up depends on. -/
structure Constructs (t : PassTable) (construct : CMileage → PassDriver → PassDriver) : Prop where
  msgCount : ∀ m d, (construct m d).msgCount = d.msgCount
  isInitSend : t.marks = true → ∀ m d, (construct m d).isInitSend = false

theorem inv_doInit {s : Powered} (h : s.Inv t) : (s.step t construct .doInit).Inv t := by
  rw [step]
  by_cases hc : PassDriver.count s.mileage s.driver ≤ s.mileage.numOfWheel * PassDriver.initMsgCounts
  · have hle : s.mileage.numOfWheel ≤ 4 := numOfWheel_le s.mileage.chassisType
    rw [PassDriver.sendInit_rows t _ rfl (by unfold PassDriver.calls; unfold PassDriver.initMsgCounts at hc; omega) hc]
    refine ⟨rfl, ?_⟩
    intro ht
    have hempty : ∀ (f : Nat → StdTxMsg) (a c : Nat), (!((List.range' a c).map f).isEmpty) = decide (0 < c) := by
      intro f a c
      cases c <;> rfl
    dsimp only
    rw [h.isInitSend ht, ht, Bool.true_and, hempty]
  · rw [PassDriver.sendInit_leaves t (by omega)]
    exact h

theorem inv_step (hcons : Constructs t construct) {s : Powered} (h : s.Inv t) (e : PassEv) :
    (s.step t construct e).Inv t := by
  cases e with
  | mileage m => exact ⟨h.msgCount, h.isInitSend⟩
  | construct => exact ⟨(hcons.msgCount _ _).trans h.msgCount, fun ht => hcons.isInitSend ht _ _⟩
  | setMotorRxId idx id => exact ⟨h.msgCount, h.isInitSend⟩
  | doInit => exact inv_doInit h
  | round r => exact h

theorem inv_powerUp (hcons : Constructs t construct) (isInitSend : Bool) (motorRxId : Nat → Nat) (m : CMileage) :
    (powerUp construct isInitSend motorRxId m).Inv t :=
  ⟨hcons.msgCount _ _, fun ht => hcons.isInitSend ht _ _⟩

theorem complete_along (hcons : Constructs t construct) (ht : t.initData.length = PassDriver.initMsgCounts) {s : Powered}
    (h : s.Inv t) (es : List PassEv) :
    Along (step t construct) (OnInit fun s => PassDriver.Complete t s.mileage s.driver) s es ↔
      Along (step t construct) (OnInit SameWheels) s es := by
  refine along_iff_of_inv (I := Inv t) (fun s e hs _ => inv_step hcons hs e) ?_ es s h
  intro s e hs
  cases e with
  | doInit => exact (PassDriver.complete_iff ht).trans (PassDriver.count_eq_iff hs.msgCount)
  | _ => exact Iff.rfl

end Powered

theorem constructs_kinco : Powered.Constructs CProtocolKincoCANOpen.table CProtocolKincoCANOpen.construct :=
  ⟨fun _ _ => rfl, by rintro ⟨⟩⟩

theorem constructs_motec : Powered.Constructs CProtocolMotecCANOpen.table CProtocolMotecCANOpen.construct :=
  ⟨fun _ _ => rfl, fun _ _ _ => rfl⟩

/-- The rounds that Motec serves, by what has happened to the object. -/
def MotecReady (s : Powered) (r : Round) : Prop :=
  s.mileage.numOfWheel = 0 ∨ r.cmd = .targetSpeed ∨ s.started = true

theorem start_up_passes (isInitSend : Bool) (motorRxId : Nat → Nat) (m : CMileage) (es : List PassEv) :
    let kinco := Powered.powerUp CProtocolKincoCANOpen.construct isInitSend motorRxId m
    let motec := Powered.powerUp CProtocolMotecCANOpen.construct isInitSend motorRxId m
    let kincoStep := Powered.step CProtocolKincoCANOpen.table CProtocolKincoCANOpen.construct
    let motecStep := Powered.step CProtocolMotecCANOpen.table CProtocolMotecCANOpen.construct
    (Along kincoStep (Powered.OnInit fun s => PassDriver.Complete CProtocolKincoCANOpen.table s.mileage s.driver) kinco es ↔
        Along kincoStep (Powered.OnInit Powered.SameWheels) kinco es) ∧
      (Along motecStep (Powered.OnInit fun s => PassDriver.Complete CProtocolMotecCANOpen.table s.mileage s.driver) motec es ↔
        Along motecStep (Powered.OnInit Powered.SameWheels) motec es) ∧
      Along kincoStep (Powered.OnRound fun s r => CProtocolKincoCANOpen.inBand.Served s.mileage s.driver r) kinco es ∧
      (Along motecStep (Powered.OnRound fun s r => CProtocolMotecCANOpen.inBand.Served s.mileage s.driver r) motec es ↔
        Along motecStep (Powered.OnRound MotecReady) motec es) := by
  intro kinco motec kincoStep motecStep
  have hkinco := Powered.inv_powerUp constructs_kinco isInitSend motorRxId m
  have hmotec := Powered.inv_powerUp constructs_motec isInitSend motorRxId m
  refine ⟨Powered.complete_along constructs_kinco rfl hkinco es, Powered.complete_along constructs_motec rfl hmotec es,
    along_of_all ?_ es kinco, ?_⟩
  · intro s e
    cases e with
    | round r => exact CProtocolKincoCANOpen.served s.mileage s.driver r
    | _ => trivial
  · refine along_iff_of_inv (I := Powered.Inv CProtocolMotecCANOpen.table)
      (fun s e hs _ => Powered.inv_step constructs_motec hs e) ?_ es motec hmotec
    intro s e hs
    cases e with
    | round r =>
      refine (CProtocolMotecCANOpen.served_iff s.mileage s.driver r).trans ?_
      rw [hs.isInitSend rfl]
      exact Iff.rfl
    | _ => exact Iff.rfl

end SeerDIOBoard.Can
