/-
  SeerDIOBoard.Can.MingZhiHandshake — which motors MingZhi has started up when it says
  that it is done (`isInitSend`).

  Every other frame of the start-up goes to 0x610. The ones in between go to the motors,
  and where such a frame stands in the start-up is worked out from the frames that are left
  (`msgCount`) and the wheels there are now. `Watched.sent` keeps what has been sent to the
  motors since the driver last went back to its start-up.

  `msgCount` is set when the program starts, for the two wheels of a chassis nobody has
  configured, and by `decode` when a motor is not enabled. The constructor does not set it.
  So a start-up is planned for the wheels there are when `decode` began it, or when there
  are two; on another chassis the first one sends too few frames or too many, and a driver
  built after a start-up is over finds none left and sends to motors that do not exist.

  - `handshake_iff`: the frames are the table's to the motors of the chassis, and done means
    done, exactly in the runs where every start-up is planned right (`Planned`).
  - `planned_of_two`: so it is on a chassis of two wheels until a driver is built anew.
-/

import SeerDIOBoard.Can.MingZhi
import SeerDIOBoard.Lib.Grid

namespace SeerDIOBoard.Can.CProtocolMingZhiCanopen

open Lib.Bytes Lib.Grid Lib.Machine SeerDIOBoard.Mileage

/-! ## Runs -/

/-- `currentMsg % MINGZHI_INIT_MSG_COUNTS`, the row of the table. -/
def rowIdx (m : CMileage) (d : CProtocolMingZhiCanopen) : Int := (currentMsg m d).toInt.tmod initMsgCounts

/-- `(uint8_t)(currentMsg / MINGZHI_INIT_MSG_COUNTS)`, the motor. -/
def rxIdx (m : CMileage) (d : CProtocolMingZhiCanopen) : Int := (currentMsg m d).toInt.tdiv initMsgCounts % 2 ^ 8

/-- The next `encode` sends a start-up frame to a motor. -/
def ToMotor (d : CProtocolMingZhiCanopen) : Prop := d.isInitSend = false ∧ 1 ≤ d.count

instance (d : CProtocolMingZhiCanopen) : Decidable (ToMotor d) := inferInstanceAs (Decidable (_ ∧ _))

structure Watched where
  driver : CProtocolMingZhiCanopen
  /-- The motor and the row of each frame to a motor since `isInitSend` was last set to
      false from true. -/
  sent : List (Nat × Nat)

inductive Event where
  | construct
  | encode (motorIdx : Nat) (ct : MotorDriverCmdType) (val : Int) (msg : StdTxMsg)
  | decode (val : Int) (msg : CanMsg)

/-- With another driver: back in the start-up, nothing has been sent. -/
def Watched.turn (s : Watched) (d : CProtocolMingZhiCanopen) : Watched :=
  { driver := d, sent := if s.driver.isInitSend = true ∧ d.isInitSend = false then [] else s.sent }

def step (m : CMileage) (s : Watched) : Event → Watched
  | .construct => s.turn (construct m s.driver)
  | .encode i ct val msg =>
    match CProtocolMingZhiCanopen.encode m s.driver i ct val msg with
    | none => s
    | some (d, _) =>
      { driver := d
        sent := if ToMotor s.driver then s.sent ++ [((rxIdx m s.driver).toNat, (rowIdx m s.driver).toNat)] else s.sent }
  | .decode val msg => s.turn (CProtocolMingZhiCanopen.decode m s.driver val msg).1

/-- The frame is a row of the table, to a motor of the chassis. -/
def InTable (m : CMileage) (d : CProtocolMingZhiCanopen) (frame : Option StdTxMsg) : Prop :=
  ∃ row idx : Nat, row < initMsgCounts ∧ idx < m.numOfWheel ∧ rowIdx m d = row ∧ rxIdx m d = idx ∧
    frame = some { stdId := d.motorRxId idx, data := bytesOf (velModeInitData.getD row []) }

structure Handshake (m : CMileage) (s : Watched) (e : Event) : Prop where
  inTable : ∀ i ct val msg, e = .encode i ct val msg → ToMotor s.driver →
    InTable m s.driver ((CProtocolMingZhiCanopen.encode m s.driver i ct val msg).map Prod.snd)
  complete : s.driver.isInitSend = false → (step m s e).driver.isInitSend = true →
    Covers initMsgCounts m.numOfWheel (step m s e).sent

/-- How many frames to motors the start-up comes to. -/
def planned (s : Watched) : Int := s.sent.length + s.driver.msgCount.toInt

/-- For a frame to a motor: the start-up is planned for as many frames as the motors need,
    or for fewer and this is not the last of them; but for some. -/
def Planned (m : CMileage) (s : Watched) : Event → Prop
  | .encode _ _ _ _ => ToMotor s.driver → 0 < planned s ∧
      (planned s = initMsgCounts * m.numOfWheel ∨ planned s < initMsgCounts * m.numOfWheel ∧ s.driver.msgCount ≠ 1)
  | _ => True

/-- The variables of the file as the program starts with them, and a driver built on `m`. -/
def powerUp (encoderLines : Int) (motorRxId : Nat → Nat) (m : CMileage) : Watched where
  driver := construct m
    { isInitSend := false, msgCount := allMsgs (.new encoderLines), count := 0, motorRxId := motorRxId }
  sent := []

/-! ## One frame -/

variable {m : CMileage} {d : CProtocolMingZhiCanopen}

theorem numOfWheel_le_four (m : CMileage) : m.numOfWheel ≤ 4 := numOfWheel_le _

/-- The indices are in range where the counter is. -/
theorem inRange_iff : 0 ≤ rowIdx m d ∧ rxIdx m d < m.numOfWheel ↔
    1 ≤ d.msgCount.toInt ∧ d.msgCount.toInt ≤ initMsgCounts * m.numOfWheel := by
  have hn := numOfWheel_le_four m
  have hlo := d.msgCount.le_toInt
  have hhi := d.msgCount.toInt_lt
  unfold rowIdx rxIdx initMsgCounts
  constructor
  · rintro ⟨hrow, hrx⟩
    have hsplit := Int.mul_tdiv_add_tmod (currentMsg m d).toInt 5
    have hlt := Int.tmod_lt_of_pos (currentMsg m d).toInt (show (0 : Int) < 5 by decide)
    have hcurlo := (currentMsg m d).le_toInt
    have hcurhi := (currentMsg m d).toInt_lt
    push_cast at hrow hrx
    have hcur : 0 ≤ (currentMsg m d).toInt ∧ (currentMsg m d).toInt < 5 * m.numOfWheel := by
      rcases lt_or_ge ((currentMsg m d).toInt.tdiv 5) 0 with hneg | hpos
      · have hwrap : (currentMsg m d).toInt.tdiv 5 % 2 ^ 8 = (currentMsg m d).toInt.tdiv 5 + 256 := by omega
        omega
      · rw [Int.emod_eq_of_lt hpos (by omega)] at hrx
        omega
    have hbmod : (m.numOfWheel * 5 - d.msgCount.toInt).bmod 256 = (currentMsg m d).toInt :=
      (Int8.toInt_ofInt (n := m.numOfWheel * 5 - d.msgCount.toInt)).symm
    rw [Int.bmod_def] at hbmod
    split at hbmod
    · omega
    · omega
  · rintro ⟨h1, hle⟩
    rw [currentMsg_toInt (by omega) (by omega)]
    push_cast at hle ⊢
    rw [Int.tmod_eq_emod_of_nonneg (by omega), Int.tdiv_eq_ediv_of_nonneg (by omega)]
    omega

/-- In range they are the next cell. -/
theorem idx_eq {a : Nat} (h : a + d.msgCount.toInt = initMsgCounts * m.numOfWheel) (h1 : 1 ≤ d.msgCount.toInt) :
    ((rxIdx m d).toNat, (rowIdx m d).toNat) = cell initMsgCounts a := by
  have hn := numOfWheel_le_four m
  unfold rowIdx rxIdx cell
  unfold initMsgCounts at h ⊢
  push_cast at h ⊢
  rw [currentMsg_toInt (by omega) (by omega), show (m.numOfWheel * 5 - d.msgCount.toInt : Int) = a by omega,
    Int.tmod_eq_emod_of_nonneg (by omega), Int.tdiv_eq_ediv_of_nonneg (by omega)]
  refine Prod.ext ?_ ?_
  · dsimp only
    omega
  · dsimp only
    omega

theorem encode_toMotor (h : ToMotor d) (hr : 0 ≤ rowIdx m d ∧ rxIdx m d < m.numOfWheel) (i : Nat)
    (ct : MotorDriverCmdType) (val : Int) (msg : StdTxMsg) :
    encode m d i ct val msg =
      some ({ d with count := 0, msgCount := d.msgCount - 1, isInitSend := decide (d.msgCount - 1 = 0) },
        { stdId := d.motorRxId (rxIdx m d).toNat, data := bytesOf (velModeInitData.getD (rowIdx m d).toNat []) }) := by
  have hn := numOfWheel_le_four m
  have hin : 0 ≤ rowIdx m d ∧ rxIdx m d < 4 := ⟨hr.1, by omega⟩
  rw [encode, if_pos h.1.symm, startUp, if_pos h.2]
  exact if_pos hin

/-- Any other call leaves the counter and the flag. -/
theorem encode_other (m : CMileage) (h : ¬ ToMotor d) (i : Nat) (ct : MotorDriverCmdType) (val : Int) (msg : StdTxMsg) :
    ∃ d' f, encode m d i ct val msg = some (d', f) ∧ d'.isInitSend = d.isInitSend ∧ d'.msgCount = d.msgCount := by
  cases hs : d.isInitSend with
  | false =>
    rw [encode, if_pos hs.symm, startUp, if_neg fun hc => h ⟨hs, hc⟩]
    exact ⟨_, _, rfl, hs, rfl⟩
  | true =>
    rw [encode, if_neg (by rw [hs]; exact Bool.noConfusion)]
    exact ⟨_, _, rfl, hs, rfl⟩

theorem decode_driver (m : CMileage) (d : CProtocolMingZhiCanopen) (val : Int) (msg : CanMsg) :
    (decode m d val msg).1 = d ∨
      d.isInitSend = true ∧ (decode m d val msg).1 = { d with isInitSend := false, msgCount := allMsgs m } := by
  unfold decode
  split
  · exact .inl rfl
  · split
    · exact .inl rfl
    · dsimp only
      split
      · unfold reconfig
        split
        case isTrue hre => exact .inr ⟨hre.2.symm, rfl⟩
        case isFalse => exact .inl rfl
      · exact .inl rfl

theorem inTable_iff (h : ToMotor d) (i : Nat) (ct : MotorDriverCmdType) (val : Int) (msg : StdTxMsg) :
    InTable m d ((encode m d i ct val msg).map Prod.snd) ↔
      1 ≤ d.msgCount.toInt ∧ d.msgCount.toInt ≤ initMsgCounts * m.numOfWheel := by
  rw [← inRange_iff]
  constructor
  · rintro ⟨row, idx, _, hidx, hrow, hrx, _⟩
    omega
  · intro hr
    have hlt : rowIdx m d < 5 := Int.tmod_lt_of_pos _ (by decide)
    have hpos : 0 ≤ rxIdx m d := Int.emod_nonneg _ (by decide)
    refine ⟨(rowIdx m d).toNat, (rxIdx m d).toNat, ?_, by omega, by omega, by omega, ?_⟩
    · unfold initMsgCounts
      omega
    · rw [encode_toMotor h hr]
      rfl

/-! ## What has been sent -/

/-- What has been sent are the cells before the one the counter stands for. -/
def Counted (m : CMileage) (s : Watched) : Prop :=
  s.driver.isInitSend = false → s.sent = [] ∨
    1 ≤ s.driver.msgCount.toInt ∧
      ∃ a : Nat, a + planned s = initMsgCounts * m.numOfWheel ∧ s.sent = cells initMsgCounts a s.sent.length

theorem pred_toInt {n : Int8} (h : 1 ≤ n.toInt) : (n - 1).toInt = n.toInt - 1 := by
  have hhi := n.toInt_lt
  rw [Int8.toInt_sub, Int8.toInt_one, Int.bmod_def]
  split
  · omega
  · omega

variable {s : Watched}

theorem counted_turn (h : Counted m s) {d' : CProtocolMingZhiCanopen}
    (hkeep : s.driver.isInitSend = false → d'.msgCount = s.driver.msgCount) : Counted m (s.turn d') := by
  intro hs
  cases hold : s.driver.isInitSend with
  | true => exact .inl (if_pos ⟨hold, hs⟩)
  | false =>
    have hsent : (s.turn d').sent = s.sent := if_neg fun hboth => by rw [hold] at hboth; exact Bool.noConfusion hboth.1
    have hplan : planned (s.turn d') = planned s := by
      unfold planned
      rw [hsent]
      exact congrArg (fun n : Int8 => s.sent.length + n.toInt) (hkeep hold)
    rw [hplan, hsent]
    rcases h hold with hnil | ⟨h1, hcells⟩
    · exact .inl hnil
    · refine .inr ⟨?_, hcells⟩
      rw [show (s.turn d').driver.msgCount = s.driver.msgCount from hkeep hold]
      exact h1

theorem wheels_pos {k : Int} (h1 : 1 ≤ k) (hn : k ≤ initMsgCounts * m.numOfWheel) : 0 < m.numOfWheel := by
  unfold initMsgCounts at hn
  omega

theorem inRange_of_planned (hj : Counted m s) (ht : ToMotor s.driver)
    (hp : 0 < planned s ∧ (planned s = initMsgCounts * m.numOfWheel ∨
      planned s < initMsgCounts * m.numOfWheel ∧ s.driver.msgCount ≠ 1)) :
    planned s ≤ initMsgCounts * m.numOfWheel ∧
      1 ≤ s.driver.msgCount.toInt ∧ s.driver.msgCount.toInt ≤ initMsgCounts * m.numOfWheel := by
  obtain ⟨hpos, hplan⟩ := hp
  have hle : planned s ≤ initMsgCounts * m.numOfWheel := hplan.elim le_of_eq fun h => h.1.le
  refine ⟨hle, ?_⟩
  unfold planned at hpos hle
  rcases hj ht.1 with hnil | ⟨h1, _⟩
  · rw [hnil, List.length_nil] at hpos hle
    omega
  · omega

theorem planned_le (hj : Counted m s) (ht : ToMotor s.driver)
    (hle : s.driver.msgCount.toInt ≤ initMsgCounts * m.numOfWheel) : planned s ≤ initMsgCounts * m.numOfWheel := by
  rcases hj ht.1 with hnil | ⟨_, a, ha, _⟩
  · unfold planned
    rw [hnil, List.length_nil]
    omega
  · omega

/-- With the next frame. -/
theorem sent_next (hj : Counted m s) (ht : ToMotor s.driver) (h1 : 1 ≤ s.driver.msgCount.toInt)
    (hle : planned s ≤ initMsgCounts * m.numOfWheel) :
    ∃ a : Nat, a + planned s = initMsgCounts * m.numOfWheel ∧
      s.sent ++ [((rxIdx m s.driver).toNat, (rowIdx m s.driver).toNat)] = cells initMsgCounts a (s.sent.length + 1) := by
  obtain ⟨a, ha, hsent⟩ : ∃ a : Nat, a + planned s = initMsgCounts * m.numOfWheel ∧
      s.sent = cells initMsgCounts a s.sent.length := by
    rcases hj ht.1 with hnil | ⟨_, hcells⟩
    · refine ⟨(initMsgCounts * m.numOfWheel - planned s).toNat, by omega, ?_⟩
      rw [hnil]
      rfl
    · exact hcells
  have hcell : (a + s.sent.length : Nat) + s.driver.msgCount.toInt = initMsgCounts * m.numOfWheel := by
    unfold planned at ha
    omega
  refine ⟨a, ha, ?_⟩
  rw [idx_eq hcell h1, ← cells_snoc, ← hsent]

/-! ## One step -/

theorem step_toMotor (h : ToMotor s.driver) (hr : 0 ≤ rowIdx m s.driver ∧ rxIdx m s.driver < m.numOfWheel) (i : Nat)
    (ct : MotorDriverCmdType) (val : Int) (msg : StdTxMsg) :
    step m s (.encode i ct val msg) =
      { driver :=
          { s.driver with
            count := 0
            msgCount := s.driver.msgCount - 1
            isInitSend := decide (s.driver.msgCount - 1 = 0) }
        sent := s.sent ++ [((rxIdx m s.driver).toNat, (rowIdx m s.driver).toNat)] } := by
  unfold step
  dsimp only
  rw [encode_toMotor h hr, if_pos h]

theorem step_other (m : CMileage) (h : ¬ ToMotor s.driver) (i : Nat) (ct : MotorDriverCmdType) (val : Int)
    (msg : StdTxMsg) :
    (step m s (.encode i ct val msg)).driver.isInitSend = s.driver.isInitSend ∧
      (step m s (.encode i ct val msg)).driver.msgCount = s.driver.msgCount ∧
      (step m s (.encode i ct val msg)).sent = s.sent := by
  obtain ⟨d', f, henc, hs, hcount⟩ := encode_other m h i ct val msg
  unfold step
  dsimp only
  rw [henc, if_neg h]
  exact ⟨hs, hcount, rfl⟩

theorem counted_step (s : Watched) (e : Event) (hj : Counted m s) (hp : Planned m s e) : Counted m (step m s e) := by
  cases e with
  | construct => exact counted_turn hj fun _ => rfl
  | decode val msg =>
    refine counted_turn hj fun hs => ?_
    rcases decode_driver m s.driver val msg with heq | ⟨htrue, _⟩
    · rw [heq]
    · rw [hs] at htrue
      cases htrue
  | encode i ct val msg =>
    by_cases ht : ToMotor s.driver
    · obtain ⟨hle, h1, hn⟩ := inRange_of_planned hj ht (hp ht)
      obtain ⟨a, ha, hsent⟩ := sent_next hj ht h1 hle
      rw [step_toMotor ht (inRange_iff.mpr ⟨h1, hn⟩)]
      intro hmore
      have hpred := pred_toInt h1
      have hne : s.driver.msgCount - 1 ≠ 0 := of_decide_eq_false hmore
      have hne0 : (s.driver.msgCount - 1).toInt ≠ 0 := fun h0 => hne (Int8.toInt_inj.mp h0)
      refine .inr ⟨?_, a, ?_, ?_⟩
      · dsimp only
        omega
      · unfold planned at ha ⊢
        rw [List.length_append, List.length_singleton]
        dsimp only
        omega
      · rw [List.length_append, List.length_singleton]
        exact hsent
    · obtain ⟨hs, hcount, hsent⟩ := step_other m ht i ct val msg
      intro hnow
      unfold planned
      rw [hcount, hsent]
      exact hj (hs.symm.trans hnow)

theorem handshake_of_planned (hj : Counted m s) {e : Event} (hp : Planned m s e) : Handshake m s e := by
  cases e with
  | construct => exact ⟨fun _ _ _ _ he => Event.noConfusion he, fun _ hs => Bool.noConfusion hs⟩
  | decode val msg =>
    refine ⟨fun _ _ _ _ he => Event.noConfusion he, fun hs hnow => ?_⟩
    have hnow : (CProtocolMingZhiCanopen.decode m s.driver val msg).1.isInitSend = true := hnow
    rcases decode_driver m s.driver val msg with heq | ⟨htrue, _⟩
    · rw [heq, hs] at hnow
      cases hnow
    · rw [hs] at htrue
      cases htrue
  | encode i ct val msg =>
    by_cases ht : ToMotor s.driver
    · obtain ⟨hle, h1, hn⟩ := inRange_of_planned hj ht (hp ht)
      refine ⟨fun i ct val msg _ _ => (inTable_iff ht i ct val msg).mpr ⟨h1, hn⟩, fun _ hnow => ?_⟩
      obtain ⟨a, ha, hsent⟩ := sent_next hj ht h1 hle
      rw [step_toMotor ht (inRange_iff.mpr ⟨h1, hn⟩)] at hnow ⊢
      have hlast := toInt_of_last (of_decide_eq_true hnow)
      have hall : planned s = initMsgCounts * m.numOfWheel :=
        (hp ht).2.resolve_right fun h => h.2 (Int8.toInt_inj.mp hlast)
      dsimp only
      rw [hsent]
      unfold planned at ha hall
      exact (covers_cells_iff (by decide) (wheels_pos h1 hn) a _).mpr (by omega)
    · refine ⟨fun _ _ _ _ _ ht' => absurd ht' ht, fun hs hnow => ?_⟩
      rw [(step_other m ht i ct val msg).1, hs] at hnow
      cases hnow

theorem planned_of_handshake (hj : Counted m s) {e : Event} (h : Handshake m s e) : Planned m s e := by
  cases e with
  | construct => trivial
  | decode val msg => trivial
  | encode i ct val msg =>
    intro ht
    obtain ⟨h1, hn⟩ := (inTable_iff ht i ct val msg).mp (h.inTable i ct val msg rfl ht)
    have hle := planned_le hj ht hn
    refine ⟨by unfold planned; omega, ?_⟩
    rcases hle.eq_or_lt with heq | hlt
    · exact .inl heq
    · refine .inr ⟨hlt, fun hlast => ?_⟩
      -- the last frame, and the first cell has never been sent
      obtain ⟨a, ha, hsent⟩ := sent_next hj ht h1 hle
      have hcov := h.complete ht.1
      rw [step_toMotor ht (inRange_iff.mpr ⟨h1, hn⟩), hlast] at hcov
      have hcov := hcov rfl
      dsimp only at hcov
      rw [hsent] at hcov
      have hzero := ((covers_cells_iff (by decide) (wheels_pos h1 hn) a _).mp hcov).1
      omega

/-! ## Every run -/

theorem handshake_iff (encoderLines : Int) (motorRxId : Nat → Nat) (m : CMileage) (es : List Event) :
    Along (step m) (Planned m) (powerUp encoderLines motorRxId m) es ↔
      Along (step m) (Handshake m) (powerUp encoderLines motorRxId m) es :=
  along_iff_of_inv (I := Counted m) counted_step
    (fun _ _ hj => ⟨handshake_of_planned hj, planned_of_handshake hj⟩) es _ fun _ => .inl rfl

/-! ## Start-ups that are planned right -/

/-- No driver is built once the start-up is over. -/
def NotRebuilt (s : Watched) : Event → Prop
  | .construct => s.driver.isInitSend = false
  | _ => True

/-- The start-up comes to the frames the motors need. -/
def Full (m : CMileage) (s : Watched) : Prop := s.driver.isInitSend = false → planned s = initMsgCounts * m.numOfWheel

theorem allMsgs_toInt (m : CMileage) : (allMsgs m).toInt = initMsgCounts * m.numOfWheel := by
  have hn := numOfWheel_le_four m
  unfold allMsgs initMsgCounts
  rw [Int8.toInt_ofInt_of_le (by omega) (by omega), mul_comm]

theorem planned_of_full (hn : 0 < m.numOfWheel) (hf : Full m s) (e : Event) : Planned m s e := by
  cases e with
  | construct => trivial
  | decode val msg => trivial
  | encode i ct val msg =>
    intro ht
    have hall := hf ht.1
    refine ⟨?_, .inl hall⟩
    rw [hall]
    unfold initMsgCounts
    omega

theorem full_step (hn : 0 < m.numOfWheel) (s : Watched) (e : Event) (hj : Counted m s) (hf : Full m s)
    (hp : NotRebuilt s e) : Full m (step m s e) := by
  cases e with
  | construct =>
    have hp : s.driver.isInitSend = false := hp
    intro _
    have hsent : (step m s .construct).sent = s.sent := if_neg fun hboth => by rw [hp] at hboth; cases hboth.1
    rw [planned, hsent]
    exact hf hp
  | decode val msg =>
    intro hs
    rcases decode_driver m s.driver val msg with heq | ⟨htrue, heq⟩
    · have hsame : step m s (.decode val msg) = s := by
        unfold step Watched.turn
        dsimp only
        rw [heq, if_neg fun hboth => by rw [hboth.1] at hboth; cases hboth.2]
      rw [hsame] at hs ⊢
      exact hf hs
    · have hsent : (step m s (.decode val msg)).sent = [] := if_pos ⟨htrue, hs⟩
      have hcount : (step m s (.decode val msg)).driver.msgCount = allMsgs m := by
        unfold step Watched.turn
        dsimp only
        rw [heq]
      rw [planned, hsent, hcount, allMsgs_toInt, List.length_nil]
      omega
  | encode i ct val msg =>
    by_cases ht : ToMotor s.driver
    · have hall := hf ht.1
      obtain ⟨-, h1, hle⟩ := inRange_of_planned hj ht (planned_of_full hn hf (.encode i ct val msg) ht)
      intro _
      have hpred := pred_toInt h1
      rw [step_toMotor ht (inRange_iff.mpr ⟨h1, hle⟩), planned, List.length_append, List.length_singleton]
      unfold planned at hall
      dsimp only
      omega
    · obtain ⟨hs, hcount, hsent⟩ := step_other m ht i ct val msg
      intro hnow
      rw [planned, hcount, hsent]
      exact hf (hs.symm.trans hnow)

/-- Planned right once, planned right until a driver is built anew. -/
theorem planned_of_notRebuilt (hn : 0 < m.numOfWheel) (hj : Counted m s) (hf : Full m s) (es : List Event)
    (h : Along (step m) NotRebuilt s es) : Along (step m) (Planned m) s es :=
  along_of_inv (I := fun s => Counted m s ∧ Full m s)
    (fun s e hi hp => ⟨counted_step s e hi.1 (planned_of_full hn hi.2 e), full_step hn s e hi.1 hi.2 hp⟩)
    (fun _ e hi _ => planned_of_full hn hi.2 e) es s ⟨hj, hf⟩ h

theorem planned_of_two (encoderLines : Int) (motorRxId : Nat → Nat) (hn : m.numOfWheel = 2) (es : List Event)
    (h : Along (step m) NotRebuilt (powerUp encoderLines motorRxId m) es) :
    Along (step m) (Planned m) (powerUp encoderLines motorRxId m) es := by
  refine planned_of_notRebuilt (by omega) (fun _ => .inl rfl) (fun _ => ?_) es h
  rw [hn]
  rfl

/-! ## Start-ups that are not -/

def onWheels (chassisType : Int) : CMileage := (CMileage.new 2500).setChassisType chassisType

/-- The task asks for a speed. -/
def speedCall : Event := .encode 0 .targetSpeed 0 { stdId := 0, data := fun _ => 0 }

/-- One wheel: the first frame is for motor 255. Three: it is for motor 1, and motor 0 has
    been sent nothing when `isInitSend` becomes true. Two, and a driver built after that:
    the first frame is for motor 2. -/
theorem start_up_unplanned :
    ¬ Along (step (onWheels singleSteerPrec)) (Handshake (onWheels singleSteerPrec))
        (powerUp 2500 (fun _ => 0) (onWheels singleSteerPrec)) (List.replicate 2 speedCall) ∧
      ¬ Along (step (onWheels tricycle)) (Handshake (onWheels tricycle))
        (powerUp 2500 (fun _ => 0) (onWheels tricycle)) (List.replicate 20 speedCall) ∧
      ¬ Along (step (onWheels doubleDiff)) (Handshake (onWheels doubleDiff))
        (powerUp 2500 (fun _ => 0) (onWheels doubleDiff))
        (List.replicate 20 speedCall ++ [.construct, speedCall, speedCall]) := by
  refine ⟨fun h => ?_, fun h => ?_, fun h => ?_⟩
  · have hlast := (along_iff_forall _ _).mp h [speedCall] speedCall [] rfl
    obtain ⟨row, idx, _, hidx, _, hrx, _⟩ := hlast.inTable _ _ _ _ rfl ⟨rfl, by decide⟩
    have h255 : (255 : Int) = idx := hrx
    have hwheels : (onWheels singleSteerPrec).numOfWheel = 1 := rfl
    omega
  · have hlast := (along_iff_forall _ _).mp h (List.replicate 19 speedCall) speedCall [] rfl
    have hfirst := hlast.complete (by decide +kernel) (by decide +kernel) 0 (by decide) 0 (by decide)
    exact absurd hfirst (by decide +kernel)
  · have hlast := (along_iff_forall _ _).mp h (List.replicate 20 speedCall ++ [.construct, speedCall]) speedCall [] rfl
    obtain ⟨row, idx, _, hidx, _, hrx, _⟩ := hlast.inTable _ _ _ _ rfl (by decide +kernel)
    have h2 : rxIdx (onWheels doubleDiff) (run (step (onWheels doubleDiff)) (powerUp 2500 (fun _ => 0)
        (onWheels doubleDiff)) (List.replicate 20 speedCall ++ [.construct, speedCall])).driver = 2 := by decide +kernel
    have hwheels : (onWheels doubleDiff).numOfWheel = 2 := rfl
    omega

end SeerDIOBoard.Can.CProtocolMingZhiCanopen
