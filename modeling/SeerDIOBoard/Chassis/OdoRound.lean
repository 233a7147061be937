/-
  SeerDIOBoard.Chassis.OdoRound — what the chassis task reports after an odometry query.

  It should report, for every wheel in use, the position carried by a reply that motor has
  sent since the query (`Fresh`). `waitCmdRet` counts position replies, one per wheel,
  whoever they are from; it files a frame by its own two constants; an error frame of a
  motor overwrites its position; and `task_chassis` reports whatever `waitCmdRet` returned.

  `odo_fresh`: the report is fresh in the runs where the frames of every query are
  `Orderly`. The argument is a count: each reply is filed under its own motor, no two are
  from the same one, so when there are as many as wheels every wheel has one.
-/

import Mathlib.Data.Finset.Card
import SeerDIOBoard.Chassis.TaskProofs

namespace SeerDIOBoard.Chassis.Task

open Lib.Machine
open SeerDIOBoard.Can SeerDIOBoard.Mileage
open CChassisDevice (slot)

variable {F : Type}

/-- The configured Tx id of motor `i`. -/
def txId (s : Task F) (i : Nat) : Option Nat := s.chassis.driverProtocol.bind fun d => d.motorTxId i

/-- When the task reports: each wheel in use is given the position of a reply of its own
    motor, read since the query. -/
def Fresh (s : Task F) : Ev F → Prop
  | .task =>
    s.fault = false → s.pc = .report → ∀ i, i < s.numOfWheel →
      ∃ r, r ∈ s.round ∧ r.ct = .acturalPos ∧ s.txId i = some r.chId ∧ (s.step .task).devices.mileage.pos i = r.val
  | _ => True

/-! ## The condition -/

/-- The task reads the replies to a query. -/
def odoReading : Pc → Bool
  | .reading .acturalPos _ => true
  | _ => false

/-- The task is between a query and its report. -/
def odoWaiting : Pc → Bool
  | .waitRet .acturalPos _ | .reading .acturalPos _ | .report => true
  | _ => false

/-- A reply to the query with a position is from a motor that has not replied yet, and
    `waitCmdRet` files it under that motor; an error frame is not filed under a motor that
    has replied. -/
def FrameOk (s : Task F) (r : Reply) : Prop :=
  (r.ct = .acturalPos →
    (slot r.chId < s.numOfWheel ∧ s.txId (slot r.chId) = some r.chId) ∧
      ∀ q, q ∈ s.round → q.ct = .acturalPos → q.chId ≠ r.chId) ∧
  (r.ct = .driState → ∀ q, q ∈ s.round → q.ct = .acturalPos → slot q.chId ≠ slot r.chId)

instance (s : Task F) (r : Reply) : Decidable (FrameOk s r) := inferInstanceAs (Decidable (_ ∧ _))

/-- A configuration message leaves the wheels in use and their ids. -/
def KeepsWheels (s s' : Task F) : Prop :=
  s'.numOfWheel = s.numOfWheel ∧ ∀ i, i < s.numOfWheel → s'.txId i = s.txId i

/-- From a query to its report, the frames are in order, `read` fails only when a speed
    command interrupts it, and the configuration stays. -/
def Orderly (s : Task F) : Ev F → Prop
  | .read (.frame msg) =>
    s.fault = false → odoReading s.pc = true →
      ∀ d, s.chassis.driverProtocol = some d → FrameOk s (s.decoded d msg)
  | .read (.err status _) =>
    s.fault = false → odoReading s.pc = true → status = EINTR ∧ s.chassis.bNewSpeedCmd = true
  | .demand pbMsg => s.fault = false → odoWaiting s.pc = true → KeepsWheels s (s.demandStep pbMsg)
  | .param pbMsg => s.fault = false → odoWaiting s.pc = true → KeepsWheels s (s.paramStep pbMsg)
  | _ => True

/-! ## The invariant -/

/-- The position replies read since the query. -/
def positions (s : Task F) : List Reply := s.round.filter fun r => r.ct = .acturalPos

/-- `i` motors have replied, each once, and their entries hold what they replied. -/
structure Round (s : Task F) (i : Nat) : Prop where
  count : s.positions.length = i
  filed : ∀ r, r ∈ s.round → r.ct = .acturalPos →
    slot r.chId < s.numOfWheel ∧ s.txId (slot r.chId) = some r.chId ∧ s.chassis.retVal (slot r.chId) = r.val
  distinct : (s.positions.map Reply.chId).Nodup

def RoundAt (s : Task F) : Pc → Prop
  | .waitRet .acturalPos i => i ≤ s.numOfWheel ∧ Round s i
  | .reading .acturalPos i => i < s.numOfWheel ∧ Round s i
  | .report => Round s s.numOfWheel
  | _ => True

def OdoInv (s : Task F) : Prop := s.fault = false → RoundAt s s.pc

theorem Round.congr {s s' : Task F} {i : Nat} (h : Round s i) (hr : s'.round = s.round)
    (hv : s'.chassis.retVal = s.chassis.retVal) (hk : KeepsWheels s s') : Round s' i := by
  refine ⟨?_, ?_, ?_⟩
  · simpa only [positions, hr] using h.count
  · intro r hmem hpos
    rw [hr] at hmem
    obtain ⟨hlt, htx, hval⟩ := h.filed r hmem hpos
    rw [hk.1, hk.2 _ hlt, hv]
    exact ⟨hlt, htx, hval⟩
  · simpa only [positions, hr] using h.distinct

theorem RoundAt.congr {s s' : Task F} {pc : Pc} (h : RoundAt s pc) (hr : s'.round = s.round)
    (hv : s'.chassis.retVal = s.chassis.retVal) (hk : odoWaiting pc = true → KeepsWheels s s') : RoundAt s' pc := by
  unfold RoundAt at *
  split
  · exact ⟨by rw [(hk rfl).1]; exact h.1, h.2.congr hr hv (hk rfl)⟩
  · exact ⟨by rw [(hk rfl).1]; exact h.1, h.2.congr hr hv (hk rfl)⟩
  · rw [(hk rfl).1]
    exact h.congr hr hv (hk rfl)
  · trivial

/-- The wait for the replies to another command is not a query. -/
theorem odoWaiting_other {ct : MotorDriverCmdType} (hct : ct ≠ .acturalPos) :
    odoWaiting (afterWait ct) = false ∧
      ∀ i, odoWaiting (.waitRet ct i) = false ∧ odoWaiting (.reading ct i) = false := by
  cases ct with
  | acturalPos => exact absurd rfl hct
  | _ => exact ⟨rfl, fun _ => ⟨rfl, rfl⟩⟩

/-- Away from a query nothing is claimed. -/
theorem roundAt_of_not_waiting {s : Task F} {pc : Pc} (h : odoWaiting pc = false) : RoundAt s pc := by
  unfold RoundAt
  split
  · cases h
  · cases h
  · cases h
  · trivial

/-! ## Steps -/

theorem SameConfig.keepsWheels {s s' : Task F} (h : SameConfig s s') : KeepsWheels s s' :=
  ⟨h.numOfWheel, fun i _ => by simp only [txId, h.driver]⟩

/-- A frame in order: the entries of the motors that have replied stay what they are, and
    a position is one more. -/
theorem Round.frame {s s' : Task F} {i : Nat} {r : Reply} (h : Round s i) (hok : FrameOk s r)
    (hr : s'.round = s.round ++ [r]) (hv : s'.chassis.retVal = Function.update s.chassis.retVal (slot r.chId) r.val)
    (hk : SameConfig s s')
    (hval : r.ct ≠ .acturalPos → r.ct ≠ .driState → r.val = s.chassis.retVal (slot r.chId)) :
    Round s' (if r.ct = .acturalPos then i + 1 else i) := by
  have htx : s'.txId = s.txId := by
    funext j
    simp only [txId, hk.driver]
  have hold : ∀ q, q ∈ s.round → q.ct = .acturalPos → s'.chassis.retVal (slot q.chId) = q.val := by
    intro q hq hpos
    obtain ⟨_, hqtx, hqval⟩ := h.filed q hq hpos
    rw [hv]
    by_cases hslot : slot q.chId = slot r.chId
    · rw [hslot, Function.update_self]
      by_cases hct : r.ct = .acturalPos
      · obtain ⟨⟨_, hrtx⟩, hother⟩ := hok.1 hct
        rw [hslot, hrtx] at hqtx
        exact absurd (Option.some.inj hqtx).symm (hother q hq hpos)
      by_cases herr : r.ct = .driState
      · exact absurd hslot (hok.2 herr q hq hpos)
      · rw [hval hct herr, ← hslot, hqval]
    · rw [Function.update_of_ne hslot, hqval]
  have hpos : s'.positions = s.positions ++ if r.ct = .acturalPos then [r] else [] := by
    unfold positions
    rw [hr, List.filter_append, List.filter_singleton, Bool.cond_decide]
  refine ⟨?_, ?_, ?_⟩
  · rw [hpos, List.length_append, h.count]
    split <;> rfl
  · intro q hq hct
    rw [hk.numOfWheel, htx]
    rw [hr] at hq
    rcases List.mem_append.mp hq with hq | hq
    · exact ⟨(h.filed q hq hct).1, (h.filed q hq hct).2.1, hold q hq hct⟩
    · obtain rfl := List.mem_singleton.mp hq
      refine ⟨(hok.1 hct).1.1, (hok.1 hct).1.2, ?_⟩
      rw [hv, Function.update_self]
  · rw [hpos]
    split
    case isTrue hct =>
      rw [List.map_append, List.nodup_append]
      refine ⟨h.distinct, List.nodup_singleton _, ?_⟩
      intro c hc c' hc'
      obtain ⟨q, hq, rfl⟩ := List.mem_map.mp hc
      obtain rfl := List.mem_singleton.mp hc'
      have hmem := List.mem_filter.mp hq
      exact (hok.1 hct).2 q hmem.1 (of_decide_eq_true hmem.2)
    case isFalse =>
      rw [List.append_nil]
      exact h.distinct

theorem odoInv_read {s : Task F} {i : Nat} {r : Read} (h : i < s.numOfWheel ∧ Round s i) (hf : s.fault = false)
    (hpc : s.pc = .reading .acturalPos i) (hok : Orderly s (.read r)) :
    OdoInv (s.readStep .acturalPos i r) := by
  intro hf'
  have hk := sameConfig_readStep s .acturalPos i r
  cases r with
  | err status hs =>
    have hint := hok hf (by rw [hpc]; rfl)
    simp only [readStep, if_pos hint]
    rw [hpc]
    exact h
  | frame msg =>
    cases hd : s.chassis.driverProtocol with
    | none =>
      simp only [readStep, hd] at hf'
      cases hf'
    | some d =>
      have hround : Round (s.readStep .acturalPos i (.frame msg))
          (if (s.decoded d msg).ct = .acturalPos then i + 1 else i) := by
        refine h.2.frame (hok hf (by rw [hpc]; rfl) d hd) ?_ ?_ hk ?_
        · simp only [readStep, hd]
        · simp only [readStep, hd]
          rfl
        · exact fun hp he => CDriverCanProtocol.decode_val hp he
      have hn := hk.numOfWheel
      by_cases hct : (s.decoded d msg).ct = .acturalPos
      · have hpc' : (s.readStep .acturalPos i (.frame msg)).pc = .waitRet .acturalPos (i + 1) := by
          simp only [readStep, hd]
          exact if_pos (decide_eq_true hct)
        rw [hpc']
        rw [if_pos hct] at hround
        exact ⟨by omega, hround⟩
      · have hpc' : (s.readStep .acturalPos i (.frame msg)).pc = .reading .acturalPos i := by
          simp only [readStep, hd]
          exact if_neg fun h' => hct (of_decide_eq_true h')
        rw [hpc']
        rw [if_neg hct] at hround
        exact ⟨by omega, hround⟩

/-- The replies to a speed command are nothing to the query. -/
theorem odoInv_otherRead {s : Task F} {ct : MotorDriverCmdType} {i : Nat} (hct : ct ≠ .acturalPos)
    (hpc : s.pc = .reading ct i) (r : Read) : OdoInv (s.readStep ct i r) := by
  intro _
  refine roundAt_of_not_waiting ?_
  have hhere : odoWaiting s.pc = false := by
    rw [hpc]
    exact ((odoWaiting_other hct).2 i).2
  cases r with
  | frame msg =>
    simp only [readStep]
    split
    · exact hhere
    · dsimp only
      split
      · exact ((odoWaiting_other hct).2 _).1
      · exact ((odoWaiting_other hct).2 i).2
  | err status hs =>
    simp only [readStep]
    split
    · exact hhere
    · exact (odoWaiting_other hct).1

/-- The steps of the task other than its reads. -/
theorem odoInv_taskStep {s : Task F} (h : RoundAt s s.pc) : OdoInv (s.taskStep s.pc) := by
  intro hf'
  cases hpc : s.pc with
  | sendQuery =>
    rw [hpc] at hf'
    simp only [taskStep] at hf' ⊢
    unfold encodes at hf' ⊢
    split
    case isTrue hnull =>
      rw [if_pos hnull] at hf'
      cases hf'
    case isFalse =>
      refine ⟨Nat.zero_le _, rfl, ?_, List.nodup_nil⟩
      intro r hr
      cases hr
  | waitRet ct i =>
    rw [hpc] at h
    by_cases hct : ct = .acturalPos
    · subst hct
      simp only [taskStep, goto]
      by_cases hi : i < s.numOfWheel
      · rw [if_pos hi]
        exact ⟨hi, h.2.congr rfl rfl ⟨rfl, fun _ _ => rfl⟩⟩
      · rw [if_neg hi]
        obtain rfl : i = s.numOfWheel := Nat.le_antisymm h.1 (Nat.not_lt.mp hi)
        exact h.2.congr rfl rfl ⟨rfl, fun _ _ => rfl⟩
    · refine roundAt_of_not_waiting ?_
      simp only [taskStep, goto]
      split
      · exact ((odoWaiting_other hct).2 i).2
      · exact (odoWaiting_other hct).1
  | reading ct i =>
    rw [hpc] at h
    simpa only [taskStep, hpc] using h
  | sendSpeed =>
    refine roundAt_of_not_waiting ?_
    simp only [taskStep, encodes]
    split <;> rfl
  | report => exact roundAt_of_not_waiting rfl
  | _ =>
    refine roundAt_of_not_waiting ?_
    simp only [taskStep, goto, setChassis]
    repeat' split
    all_goals first | rfl | rw [hpc]; rfl

theorem odoInv_tickStep {s : Task F} (h : RoundAt s s.pc) : OdoInv s.tickStep := by
  intro _
  unfold tickStep
  split
  case isFalse => exact h
  dsimp only
  split
  · exact roundAt_of_not_waiting rfl
  · exact h.congr rfl rfl fun _ => ⟨rfl, fun _ _ => rfl⟩

theorem odoInv_onlyConfig {s s' : Task F} (h : RoundAt s s.pc) (hc : OnlyConfig s s')
    (hk : odoWaiting s.pc = true → KeepsWheels s s') : OdoInv s' := by
  intro _
  obtain ⟨p, d, n, hchassis⟩ := hc.chassis
  have hv := congrArg CChassisDevice.retVal hchassis
  rw [hc.pc]
  exact h.congr hc.round hv hk

theorem odoInv_step (s : Task F) (e : Ev F) (h : OdoInv s) (hok : Orderly s e) : OdoInv (s.step e) := by
  unfold step
  split
  · exact h
  case isFalse hf =>
  have hf := Bool.eq_false_of_not_eq_true hf
  have hat := h hf
  have hsame : ∀ s' : Task F, s'.pc = s.pc → s'.round = s.round → s'.devices.chassis.retVal = s.chassis.retVal →
      SameConfig s s' → OdoInv s' := by
    intro s' hpc hr hv hk _
    rw [hpc]
    exact hat.congr hr hv fun _ => hk.keepsWheels
  cases e with
  | store x y w =>
    simp only [storeStep]
    split
    · exact hsame _ rfl rfl rfl ⟨rfl, rfl, rfl, rfl⟩
    · exact h
  | setFlag =>
    simp only [setFlagStep]
    split
    · exact hsame _ rfl rfl rfl ⟨rfl, rfl, rfl, rfl⟩
    · exact h
  | post =>
    simp only [postStep]
    split
    · exact hsame _ rfl rfl rfl ⟨rfl, rfl, rfl, rfl⟩
    · exact h
  | demand pbMsg => exact odoInv_onlyConfig hat (onlyConfig_demandStep s pbMsg) (hok hf)
  | param pbMsg => exact odoInv_onlyConfig hat (onlyConfig_paramStep s pbMsg) (hok hf)
  | tick => exact odoInv_tickStep hat
  | task => exact odoInv_taskStep hat
  | opened ok =>
    dsimp only
    split
    · intro _
      refine roundAt_of_not_waiting ?_
      cases ok <;> rfl
    · exact h
  | read r =>
    dsimp only
    split
    case h_1 ct i hpc =>
      rw [hpc] at hat
      by_cases hct : ct = .acturalPos
      · subst hct
        exact odoInv_read hat hf hpc hok
      · exact odoInv_otherRead hct hpc r
    · exact h

/-! ## The count -/

/-- `n` different numbers below `n` are all of them. -/
theorem mem_of_nodup_of_length {l : List Nat} {n : Nat} (hd : l.Nodup) (hlt : ∀ x, x ∈ l → x < n)
    (hlen : l.length = n) {i : Nat} (hi : i < n) : i ∈ l := by
  have hsub : l.toFinset ⊆ Finset.range n := by
    intro x hx
    exact Finset.mem_range.mpr (hlt x (List.mem_toFinset.mp hx))
  have hcard : (Finset.range n).card ≤ l.toFinset.card := by
    rw [Finset.card_range, List.toFinset_card_of_nodup hd, hlen]
  rw [← List.mem_toFinset, Finset.eq_of_subset_of_card_le hsub hcard]
  exact Finset.mem_range.mpr hi

/-- When as many have replied as there are wheels, every wheel has its reply. -/
theorem Round.all {s : Task F} (h : Round s s.numOfWheel) (i : Nat) (hi : i < s.numOfWheel) :
    ∃ r, r ∈ s.round ∧ r.ct = .acturalPos ∧ s.txId i = some r.chId ∧ s.chassis.retVal i = r.val := by
  have hfiled : ∀ r, r ∈ s.positions → slot r.chId < s.numOfWheel ∧ s.txId (slot r.chId) = some r.chId := by
    intro r hr
    have hmem := List.mem_filter.mp hr
    have hf := h.filed r hmem.1 (of_decide_eq_true hmem.2)
    exact ⟨hf.1, hf.2.1⟩
  have hslots : ((s.positions.map Reply.chId).map slot).Nodup := by
    refine List.Nodup.map_on ?_ h.distinct
    intro a ha b hb hab
    obtain ⟨r, hr, rfl⟩ := List.mem_map.mp ha
    obtain ⟨q, hq, rfl⟩ := List.mem_map.mp hb
    have htx := (hfiled r hr).2
    rw [hab, (hfiled q hq).2] at htx
    exact (Option.some.inj htx).symm
  have hmem : i ∈ (s.positions.map Reply.chId).map slot := by
    refine mem_of_nodup_of_length hslots ?_ ?_ hi
    · intro x hx
      obtain ⟨c, hc, rfl⟩ := List.mem_map.mp hx
      obtain ⟨r, hr, rfl⟩ := List.mem_map.mp hc
      exact (hfiled r hr).1
    · rw [List.length_map, List.length_map, h.count]
  obtain ⟨c, hc, hslot⟩ := List.mem_map.mp hmem
  obtain ⟨r, hr, rfl⟩ := List.mem_map.mp hc
  have hpos := List.mem_filter.mp hr
  obtain ⟨_, htx, hval⟩ := h.filed r hpos.1 (of_decide_eq_true hpos.2)
  rw [hslot] at htx hval
  exact ⟨r, hpos.1, of_decide_eq_true hpos.2, htx, hval⟩

theorem fresh_of_inv (s : Task F) (e : Ev F) (h : OdoInv s) : Fresh s e := by
  cases e with
  | task =>
    intro hf hpc i hi
    have hround := h hf
    rw [hpc] at hround
    obtain ⟨r, hr, hct, htx, hval⟩ := hround.all i hi
    refine ⟨r, hr, hct, htx, ?_⟩
    have hstep : s.step .task = s.taskStep .report := by
      unfold step
      rw [if_neg (by rw [hf]; exact Bool.false_ne_true), hpc]
    rw [hstep, ← hval]
    exact setPositions_pos s.devices i hi
  | _ => trivial

/-! ## Runs -/

/-- Over every run: where the frames of each query are in order, every report is fresh. -/
theorem odo_fresh [Zero F] (protocol : Nat) (retVal : Nat → Int) (retTyp : Nat → MotorDriverCmdType)
    (encoderLines : Int) (es : List (Ev F)) (h : Along step Orderly (powerUp protocol retVal retTyp encoderLines) es) :
    Along step Fresh (powerUp protocol retVal retTyp encoderLines) es := by
  refine along_of_inv odoInv_step (fun s e hi _ => fresh_of_inv s e hi) es _ ?_ h
  exact fun _ => trivial

/-- A position reply with the CAN id `chId`. -/
def posReply (chId : Nat) (val : UInt8) : CanMsg :=
  { chId := chId, cmData := fun i => [0x43, 0x64, 0x60, 0x00, val, 0, 0, 0].getD i 0 }

/-- Two wheels are configured, the task comes up, and the first tick sends it to query the
    odometry; it reads two frames and reports. -/
def oneQuery (first second : CanMsg) : List (Ev ℚ) :=
  [.demand (some { bChassisExist := 20, chassisType := doubleDiff, driverBrand := 2 }), .task,
    .param (some { e := 500, r := fun _ => 100, driveID := [1, 2], driveID_le := by decide, encoderLines := 2500,
                   reductionRatio := 20, motorMaxSpeedRpm := 3000, inverse := fun _ => false }),
    .task, .opened true, .task, .task, .tick, .task, .task, .task, .task, .task, .task, .task, .read (.frame first),
    .task, .read (.frame second), .task, .task]

theorem odo_fresh_both_replied :
    Along step Fresh (powerUp 0 (fun _ => 0) (fun _ => .null) 0) (oneQuery (posReply 0x581 7) (posReply 0x582 9)) ∧
      (run step (powerUp 0 (fun _ => 0) (fun _ => .null) 0)
        (oneQuery (posReply 0x581 7) (posReply 0x582 9))).devices.mileage.pos 1 = 9 := by
  refine ⟨odo_fresh 0 _ _ 0 _ ?_, by decide⟩
  refine ⟨?_, trivial, ?_, trivial, trivial, trivial, trivial, trivial, trivial, trivial, trivial, trivial, trivial,
    trivial, trivial, ?_, trivial, ?_, trivial, trivial, trivial⟩
  · intro _ h
    cases h
  · intro _ h
    cases h
  · intro _ _ d hd
    obtain rfl := Option.some.inj hd
    decide
  · intro _ _ d hd
    obtain rfl := Option.some.inj hd
    decide

/-- Motor 0 replies twice: the count is complete and wheel 1, from which nothing came, is
    reported as well. -/
theorem same_motor_twice :
    ¬ Along step Fresh (powerUp 0 (fun _ => 0) (fun _ => .null) 0)
      (oneQuery (posReply 0x581 7) (posReply 0x581 7)) := by
  rintro ⟨-, -, -, -, -, -, -, -, -, -, -, -, -, -, -, -, -, -, -, h, -⟩
  obtain ⟨r, hr, -, htx, -⟩ := h rfl rfl 1 (by decide)
  revert r
  decide

end SeerDIOBoard.Chassis.Task
