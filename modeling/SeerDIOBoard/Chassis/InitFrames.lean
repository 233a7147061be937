/-
  SeerDIOBoard.Chassis.InitFrames — the frames `CChassisDevice::doInit` sends before the
  chassis task goes into its loop (src/chassis.cxx, and `getInitMsg` of the two drivers
  that are built).

  `doInit` calls `getInitMsg` until it has no frame left. In position mode it has one for
  every wheel, the last motor first; the count is a static that the first call sets to the
  wheels there are then. In speed mode there are none. Between two calls anything else on
  the board may run.

  `start_up_sends`: when no configuration message comes in between, every motor of the
  chassis gets the frame once, under the id it is configured with, and nothing that happens
  later sends one again; the task's own steps bring `doInit` to its end.
-/

import SeerDIOBoard.Can.Requests
import SeerDIOBoard.Chassis.OdoTick

namespace SeerDIOBoard.Can.CDriverCanProtocol

/-! ## The frames -/

/-- `COPLEY_POS_MODE_INIT_DATA`, and `JINZHI_VEL_MODE_INIT_DATA`. -/
def initData : List UInt8 := [0x2F, 0x60, 0x60, 0x00, 0x03]

def initMsg (d : CDriverCanProtocol) (i : Nat) : CanTxMsg :=
  { chId := d.motorRxId i, chExtid := 1, chRtr := 1, chDlc := 8, cmData := bytesOf initData }

/-- The frame that `getInitMsg` fills in, if it has one. -/
def getInitFrame (d : CDriverCanProtocol) (n : Nat) (count : InitCount) : Option CanTxMsg :=
  let msgCount := (count.get d.cls).getD n
  match d.ctrlMode with
  | .speedMode => none
  | .positionMode => if 0 < msgCount then some (d.initMsg (msgCount - 1)) else none

/-- The frames of `k` more calls that have one. -/
def initFrames (d : CDriverCanProtocol) (k : Nat) : List CanTxMsg :=
  match d.ctrlMode with
  | .speedMode => []
  | .positionMode => (List.range k).reverse.map d.initMsg

theorem get_set (c : InitCount) (cls : DriverClass) (k : Nat) : (c.set cls k).get cls = some k := by
  cases cls <;> rfl

/-- A call takes the first of the frames that are left. -/
theorem getInitMsg_cases (d : CDriverCanProtocol) (n : Nat) (count : InitCount) :
    (∃ frame count' k, d.getInitFrame n count = some frame ∧ d.getInitMsg n count = (true, count') ∧
        count'.get d.cls = some k ∧ d.initFrames ((count.get d.cls).getD n) = frame :: d.initFrames k) ∨
      (∃ count', d.getInitFrame n count = none ∧ d.getInitMsg n count = (false, count') ∧
        d.initFrames ((count.get d.cls).getD n) = []) := by
  unfold getInitFrame getInitMsg initFrames
  generalize (count.get d.cls).getD n = k
  cases d.ctrlMode with
  | speedMode => exact Or.inr ⟨_, rfl, rfl, rfl⟩
  | positionMode =>
    cases k with
    | zero => exact Or.inr ⟨_, rfl, rfl, rfl⟩
    | succ k =>
      refine Or.inl ⟨_, _, k, rfl, rfl, get_set _ _ _, ?_⟩
      rw [List.range_succ, List.reverse_append]
      rfl

end SeerDIOBoard.Can.CDriverCanProtocol

namespace SeerDIOBoard.Chassis

open Lib.Machine
open SeerDIOBoard.Can SeerDIOBoard.Mileage

variable {F : Type}

/-! ## The start-up -/

/-- The chassis task, and the frames that `doInit` has written. -/
structure StartUp (F : Type) where
  task : Task F
  frames : List CanTxMsg

namespace StartUp

/-- The frame of a step. -/
def frameAt (s : Task F) : Ev F → Option CanTxMsg
  | .task =>
    if s.fault = false ∧ s.pc = .initMsg then s.chassis.driverProtocol.bind fun d => d.getInitFrame s.numOfWheel s.initCount
    else none
  | _ => none

def step (s : StartUp F) (e : Ev F) : StartUp F :=
  { task := s.task.step e, frames := s.frames ++ (frameAt s.task e).toList }

def powerUp [Zero F] (protocol : Nat) (retVal : Nat → Int) (retTyp : Nat → MotorDriverCmdType) (encoderLines : Int) :
    StartUp F where
  task := .powerUp protocol retVal retTyp encoderLines
  frames := []

/-- No configuration message while `doInit` sends. -/
def Undisturbed (s : StartUp F) (e : Ev F) : Prop := s.task.pc = .initMsg → Task.NotConfig e

/-- In front of `getInitMsg`. -/
def Before (pc : Pc) : Prop := pc = .waitStart ∨ pc = .waitInited ∨ pc = .openCan

/-- The frames that are still to be sent. -/
def left (s : Task F) (d : CDriverCanProtocol) : List CanTxMsg := d.initFrames ((s.initCount.get d.cls).getD s.numOfWheel)

/-- What has been sent and what is left are a frame for every wheel. -/
structure Sound (s : StartUp F) : Prop where
  before : Before s.task.pc → s.frames = [] ∧ s.task.initCount = ⟨none, none⟩
  during : s.task.pc = .initMsg → ∀ d, s.task.chassis.driverProtocol = some d →
    s.frames ++ left s.task d = d.initFrames s.task.numOfWheel

theorem not_before {pc : Pc} (h : pc = .initMsg) : ¬ Before pc := by
  rw [h]
  rintro (hb | hb | hb) <;> cases hb

theorem sound_of_looping {s : StartUp F} (h : Task.looping s.task.pc = true) : Sound s := by
  refine ⟨?_, ?_⟩
  · rintro (hb | hb | hb) <;> rw [hb] at h <;> cases h
  · intro hd
    rw [hd] at h
    cases h

/-- Once in its loop the task stays there. -/
theorem looping_step {s : Task F} (h : Task.looping s.pc = true) (e : Ev F) : Task.looping (s.step e).pc = true := by
  unfold Task.step
  split
  · exact h
  cases e with
  | store x y w => simp only [Task.storeStep]; split <;> exact h
  | setFlag => simp only [Task.setFlagStep]; split <;> exact h
  | post => simp only [Task.postStep]; split <;> exact h
  | demand pbMsg =>
    dsimp only
    rw [(Task.onlyConfig_demandStep s pbMsg).pc]
    exact h
  | param pbMsg =>
    dsimp only
    rw [(Task.onlyConfig_paramStep s pbMsg).pc]
    exact h
  | tick =>
    dsimp only [Task.tickStep]
    rw [if_pos h]
    split
    · rfl
    · exact h
  | task =>
    rcases Task.inside_taskStep s h with hin | heq
    · exact hin.1
    · dsimp only
      rw [heq]
      exact h
  | opened ok =>
    dsimp only
    split
    case isTrue hpc =>
      rw [hpc] at h
      cases h
    case isFalse => exact h
  | read r =>
    dsimp only
    split
    · cases r with
      | frame msg =>
        simp only [Task.readStep]
        split
        · exact h
        · dsimp only
          split <;> rfl
      | err status hs =>
        simp only [Task.readStep]
        split
        · exact h
        · exact (Task.inside_afterWait _).1
    · exact h

/-- What an event leaves of the start-up when it is neither the task's nor the result of `open`. -/
structure SameStart (s s' : Task F) : Prop where
  pc : s'.pc = s.pc
  initCount : s'.initCount = s.initCount

theorem sameStart_step {s : Task F} (h : Task.looping s.pc = false) {e : Ev F} (ht : e ≠ .task)
    (ho : ∀ ok, e = .opened ok → s.pc ≠ .openCan) : SameStart s (s.step e) := by
  unfold Task.step
  split
  · exact ⟨rfl, rfl⟩
  cases e with
  | store x y w => simp only [Task.storeStep]; split <;> exact ⟨rfl, rfl⟩
  | setFlag => simp only [Task.setFlagStep]; split <;> exact ⟨rfl, rfl⟩
  | post => simp only [Task.postStep]; split <;> exact ⟨rfl, rfl⟩
  | demand pbMsg => simp only [Task.demandStep]; split <;> exact ⟨rfl, rfl⟩
  | param pbMsg =>
    simp only [Task.paramStep]
    split
    · split <;> exact ⟨rfl, rfl⟩
    · exact ⟨rfl, rfl⟩
  | tick =>
    dsimp only [Task.tickStep]
    rw [if_neg (by rw [h]; exact Bool.false_ne_true)]
    exact ⟨rfl, rfl⟩
  | task => exact absurd rfl ht
  | opened ok =>
    dsimp only
    rw [if_neg (ho ok rfl)]
    exact ⟨rfl, rfl⟩
  | read r =>
    dsimp only
    split
    case h_1 ct i hpc =>
      rw [hpc] at h
      cases h
    · exact ⟨rfl, rfl⟩

/-- A step in front of `getInitMsg`. -/
theorem before_step {s : Task F} (h : Before s.pc) (e : Ev F) :
    ((s.step e).initCount = s.initCount ∧ frameAt s e = none) ∧
      (Before (s.step e).pc ∨ (s.step e).pc = .initMsg ∨ Task.looping (s.step e).pc = true) := by
  have hl : Task.looping s.pc = false := by rcases h with h | h | h <;> rw [h] <;> rfl
  have hne : s.pc ≠ .initMsg := by rcases h with h | h | h <;> rw [h] <;> rintro ⟨⟩
  have hframe : frameAt s e = none := by
    cases e with
    | task => exact if_neg fun hc => hne hc.2
    | _ => rfl
  have hother : ∀ e, e ≠ .task → (∀ ok, e ≠ .opened ok) → (s.step e).initCount = s.initCount ∧ Before (s.step e).pc := by
    intro e ht ho
    have hs := sameStart_step hl ht fun ok he => absurd he (ho ok)
    exact ⟨hs.initCount, by rw [hs.pc]; exact h⟩
  cases e with
  | task =>
    unfold Task.step
    split
    · exact ⟨⟨rfl, hframe⟩, Or.inl h⟩
    · rcases h with h | h | h
      · dsimp only
        rw [h]
        simp only [Task.taskStep]
        split
        · exact ⟨⟨rfl, hframe⟩, Or.inl (Or.inr (Or.inl rfl))⟩
        · exact ⟨⟨rfl, hframe⟩, Or.inl (Or.inl h)⟩
      · dsimp only
        rw [h]
        simp only [Task.taskStep]
        split
        · exact ⟨⟨rfl, hframe⟩, Or.inl (Or.inr (Or.inr rfl))⟩
        · exact ⟨⟨rfl, hframe⟩, Or.inl (Or.inr (Or.inl h))⟩
      · dsimp only
        rw [h]
        exact ⟨⟨rfl, hframe⟩, Or.inl (Or.inr (Or.inr h))⟩
  | opened ok =>
    unfold Task.step
    split
    · exact ⟨⟨rfl, hframe⟩, Or.inl h⟩
    · dsimp only
      split
      · refine ⟨⟨rfl, hframe⟩, Or.inr ?_⟩
        cases ok with
        | true => exact Or.inl rfl
        | false => exact Or.inr rfl
      · exact ⟨⟨rfl, hframe⟩, Or.inl h⟩
  | store _ _ _ | setFlag | post | demand _ | param _ | tick | read _ =>
    exact ⟨⟨(hother _ (by simp) (by rintro _ ⟨⟩)).1, rfl⟩, Or.inl (hother _ (by simp) (by rintro _ ⟨⟩)).2⟩

theorem pc_cases (pc : Pc) : Before pc ∨ pc = .initMsg ∨ Task.looping pc = true := by
  cases pc with
  | waitStart => exact Or.inl (Or.inl rfl)
  | waitInited => exact Or.inl (Or.inr (Or.inl rfl))
  | openCan => exact Or.inl (Or.inr (Or.inr rfl))
  | initMsg => exact Or.inr (Or.inl rfl)
  | _ => exact Or.inr (Or.inr rfl)

/-- A call of `getInitMsg`, or of nothing. -/
theorem call_cases {s : Task F} (hpc : s.pc = .initMsg) :
    (frameAt s .task = none ∧ s.step .task = s) ∨
      (s.chassis.driverProtocol = none ∧ frameAt s .task = none ∧ s.step .task = { s with fault := true }) ∨
        ∃ d, s.chassis.driverProtocol = some d ∧ frameAt s .task = d.getInitFrame s.numOfWheel s.initCount ∧
          s.step .task =
            { s with
              initCount := (d.getInitMsg s.numOfWheel s.initCount).2
              pc := if (d.getInitMsg s.numOfWheel s.initCount).1 = true then .initMsg else .timerSet } := by
  by_cases hf : s.fault = true
  · refine Or.inl ⟨if_neg fun hc => ?_, by rw [Task.step, if_pos hf]⟩
    rw [hc.1] at hf
    cases hf
  have hf' : s.fault = false := Bool.eq_false_of_not_eq_true hf
  have hstep : s.step .task = s.taskStep .initMsg := by rw [Task.step, if_neg hf, hpc]
  have hframe : frameAt s .task = s.chassis.driverProtocol.bind fun d => d.getInitFrame s.numOfWheel s.initCount :=
    if_pos ⟨hf', hpc⟩
  refine Or.inr ?_
  rw [hstep, hframe]
  cases hd : s.chassis.driverProtocol with
  | none => exact Or.inl ⟨rfl, rfl, by simp only [Task.taskStep, hd]⟩
  | some d => exact Or.inr ⟨d, rfl, rfl, by simp only [Task.taskStep, hd]⟩

theorem sound_call {s : StartUp F} (h : Sound s) (hpc : s.task.pc = .initMsg) : Sound (step s .task) := by
  rcases call_cases hpc with ⟨hframe, hstep⟩ | ⟨hd, hframe, hstep⟩ | ⟨d, hd, hframe, hstep⟩
  · rw [step, hframe, hstep, Option.toList_none, List.append_nil]
    exact h
  · rw [step, hframe, hstep, Option.toList_none, List.append_nil]
    refine ⟨?_, ?_⟩
    · exact fun hb => absurd hb (not_before hpc)
    · intro _ d hd'
      rw [show s.task.chassis.driverProtocol = some d from hd'] at hd
      cases hd
  · have hsent := h.during hpc d hd
    rcases d.getInitMsg_cases s.task.numOfWheel s.task.initCount with ⟨frame, count', k, hf, hg, hk, hleft⟩ | ⟨count', -, hg, -⟩
    · rw [step, hframe, hstep, hf, hg]
      refine ⟨?_, ?_⟩
      · exact fun hb => absurd hb (not_before rfl)
      · intro _ d' hd'
        obtain rfl : d = d' := Option.some.inj (hd.symm.trans hd')
        show s.frames ++ [frame] ++ d.initFrames ((count'.get d.cls).getD _) = d.initFrames s.task.numOfWheel
        rw [hk, Option.getD_some, ← hsent, left, hleft, List.append_assoc, List.singleton_append]
    · refine sound_of_looping ?_
      rw [step, hstep, hg]
      rfl

theorem sound_step {s : StartUp F} (h : Sound s) {e : Ev F} (hq : Undisturbed s e) : Sound (step s e) := by
  rcases pc_cases s.task.pc with hb | hpc | hl
  · obtain ⟨hframes, hcount⟩ := h.before hb
    obtain ⟨⟨hcount', hframe⟩, hnext⟩ := before_step hb e
    have hnone : (s.task.step e).initCount = ⟨none, none⟩ := hcount'.trans hcount
    rw [step, hframe, Option.toList_none, List.append_nil]
    rcases hnext with hb' | hi | hl
    · exact ⟨fun _ => ⟨hframes, hnone⟩, fun hi => absurd hb' (not_before hi)⟩
    · refine ⟨?_, fun _ d _ => ?_⟩
      · exact fun hb' => absurd hb' (not_before hi)
      · have hget : (⟨none, none⟩ : InitCount).get d.cls = none := by cases d.cls <;> rfl
        rw [left, hframes, hnone, hget]
        rfl
    · exact sound_of_looping hl
  · by_cases ht : e = .task
    · rw [ht]
      exact sound_call h hpc
    · have hsame := sameStart_step (by rw [hpc]; rfl) ht fun ok _ ho => by rw [hpc] at ho; cases ho
      have hconf := Task.sameConfig_step s.task e (hq hpc)
      have hframe : frameAt s.task e = none := by
        cases e with
        | task => exact absurd rfl ht
        | _ => rfl
      rw [step, hframe, Option.toList_none, List.append_nil]
      refine ⟨?_, fun _ d hd => ?_⟩
      · exact fun hb => absurd hb (not_before (hsame.pc.trans hpc))
      · unfold left
        dsimp only
        rw [hsame.initCount, hconf.numOfWheel]
        exact h.during hpc d (hconf.driver.symm.trans hd)
  · exact sound_of_looping (looping_step hl e)

/-! ## Runs -/

theorem frames_of_looping {s : StartUp F} (h : Task.looping s.task.pc = true) (es : List (Ev F)) :
    (run step s es).frames = s.frames := by
  induction es generalizing s with
  | nil => rfl
  | cons e es ih =>
    have hframe : frameAt s.task e = none := by
      cases e with
      | task =>
        refine if_neg fun hc => ?_
        rw [hc.2] at h
        cases h
      | _ => rfl
    rw [run_cons, ih (looping_step h e), step, hframe, Option.toList_none, List.append_nil]

/-- A call that has a frame leaves the others, and one that has none is the last. -/
theorem call_left {s : Task F} {d : CDriverCanProtocol} (hf : s.fault = false) (hpc : s.pc = .initMsg)
    (hd : s.chassis.driverProtocol = some d) :
    (s.step .task).pc = .timerSet ∨
      (s.step .task).fault = false ∧ (s.step .task).pc = .initMsg ∧ (s.step .task).chassis.driverProtocol = some d ∧
        ∃ frame, left s d = frame :: left (s.step .task) d := by
  have hstep : s.step .task = s.taskStep .initMsg := by
    rw [Task.step, if_neg (by rw [hf]; exact Bool.false_ne_true), hpc]
  simp only [hstep, Task.taskStep, hd]
  rcases d.getInitMsg_cases s.numOfWheel s.initCount with ⟨frame, count', k, -, hg, hk, hleft⟩ | ⟨count', -, hg, -⟩
  · refine .inr ⟨hf, by rw [hg]; rfl, hd, frame, ?_⟩
    rw [left, hleft, hg, left]
    dsimp only
    rw [hk]
    rfl
  · exact .inl (by rw [hg]; rfl)

/-- The task alone gets through. -/
theorem doInit_ends (s : StartUp F) {d : CDriverCanProtocol} (hf : s.task.fault = false) (hpc : s.task.pc = .initMsg)
    (hd : s.task.chassis.driverProtocol = some d) : ∃ k, (run step s (List.replicate k .task)).task.pc = .timerSet := by
  induction hn : (left s.task d).length generalizing s with
  | zero =>
    rcases call_left hf hpc hd with hlast | ⟨-, -, -, frame, hleft⟩
    · exact ⟨1, hlast⟩
    · rw [hleft] at hn
      cases hn
  | succ n ih =>
    rcases call_left hf hpc hd with hlast | ⟨hf', hpc', hd', frame, hleft⟩
    · exact ⟨1, hlast⟩
    · rw [hleft, List.length_cons] at hn
      obtain ⟨k, hk⟩ := ih (step s .task) hf' hpc' hd' (Nat.succ.inj hn)
      exact ⟨k + 1, hk⟩

theorem start_up_sends [Zero F] (protocol : Nat) (retVal : Nat → Int) (retTyp : Nat → MotorDriverCmdType)
    (encoderLines : Int) (es : List (Ev F)) (h : Along step Undisturbed (powerUp protocol retVal retTyp encoderLines) es)
    (hpc : (run step (powerUp protocol retVal retTyp encoderLines) es).task.pc = .initMsg) :
    ((run step (powerUp protocol retVal retTyp encoderLines) es).task.fault = false →
        (run step (powerUp protocol retVal retTyp encoderLines) es).task.chassis.driverProtocol ≠ none →
          ∃ k, (run step (powerUp protocol retVal retTyp encoderLines) (es ++ List.replicate k .task)).task.pc = .timerSet) ∧
      (((run step (powerUp protocol retVal retTyp encoderLines) es).task.step .task).pc = .timerSet → ∀ fs : List (Ev F),
        ∃ d, (run step (powerUp protocol retVal retTyp encoderLines) es).task.chassis.driverProtocol = some d ∧
          (run step (powerUp protocol retVal retTyp encoderLines) (es ++ .task :: fs)).frames =
            d.initFrames (run step (powerUp protocol retVal retTyp encoderLines) es).task.numOfWheel) := by
  have hstart : Sound (powerUp protocol retVal retTyp encoderLines : StartUp F) :=
    ⟨fun _ => ⟨rfl, rfl⟩, by rintro ⟨⟩⟩
  have hsound := inv_run (I := Sound) (fun s e hs he => sound_step hs he) es _ hstart h
  simp only [run_append, run_cons]
  generalize run step (powerUp protocol retVal retTyp encoderLines) es = s at hpc hsound
  refine ⟨fun hf hdriver => ?_, fun hnext fs => ?_⟩
  · obtain ⟨d, hd⟩ := Option.ne_none_iff_exists'.mp hdriver
    exact doInit_ends s hf hpc hd
  have hl : Task.looping (step s .task).task.pc = true := by
    rw [step, hnext]
    rfl
  rw [frames_of_looping hl]
  rcases call_cases hpc with ⟨-, hstep⟩ | ⟨-, -, hstep⟩ | ⟨d, hd, hframe, hstep⟩
  · rw [hstep, hpc] at hnext
    cases hnext
  · rw [hstep, show ({ s.task with fault := true } : Task F).pc = .initMsg from hpc] at hnext
    cases hnext
  · refine ⟨d, hd, ?_⟩
    rcases d.getInitMsg_cases s.task.numOfWheel s.task.initCount with ⟨frame, count', k, -, hg, -⟩ | ⟨count', hf, -, hleft⟩
    · rw [hstep, hg] at hnext
      cases hnext
    · have hsent := hsound.during hpc d hd
      rw [left, hleft, List.append_nil] at hsent
      rw [step, hframe, hf, Option.toList_none, List.append_nil, hsent]

/-- Position mode for two wheels that keep the ids of the constructor, up to the last call
    of `getInitMsg`. -/
def positionStart : List (Ev ℚ) :=
  [.demand (some ⟨20, 1, 5⟩), .param (some .initZero), .task, .task, .opened true, .task, .tick, .task]

theorem start_up_sends_two :
    ((run step (powerUp 0 (fun _ => 0) (fun _ => .null) 0) positionStart).task.fault = false →
        (run step (powerUp 0 (fun _ => 0) (fun _ => .null) 0) positionStart).task.chassis.driverProtocol ≠ none →
          ∃ k, (run step (powerUp 0 (fun _ => 0) (fun _ => .null) 0) (positionStart ++ List.replicate k .task)).task.pc =
            .timerSet) ∧
      (((run step (powerUp 0 (fun _ => 0) (fun _ => .null) 0) positionStart).task.step .task).pc = .timerSet →
        ∀ fs : List (Ev ℚ),
          ∃ d, (run step (powerUp 0 (fun _ => 0) (fun _ => .null) 0) positionStart).task.chassis.driverProtocol = some d ∧
            (run step (powerUp 0 (fun _ => 0) (fun _ => .null) 0) (positionStart ++ .task :: fs)).frames =
              d.initFrames (run step (powerUp 0 (fun _ => 0) (fun _ => .null) 0) positionStart).task.numOfWheel) := by
  refine start_up_sends 0 (fun _ => 0) (fun _ => .null) 0 positionStart ?_ rfl
  refine ⟨by rintro ⟨⟩, by rintro ⟨⟩, fun _ => trivial, fun _ => trivial, fun _ => trivial, fun _ => trivial,
    fun _ => trivial, fun _ => trivial, trivial⟩

end StartUp

end SeerDIOBoard.Chassis
