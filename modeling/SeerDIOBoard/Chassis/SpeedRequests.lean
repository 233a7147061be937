/-
  SeerDIOBoard.Chassis.SpeedRequests — no speed command is lost, over every interleaving
  of the chassis task with the dispatcher and the timer.

  A speed command is stored, then flagged, then posted. The chassis task takes the token,
  tests and clears the flag, and reads the velocity later; the odometry tick can get it
  past `sem_wait` without a token. Two invariants (`Pending`):
  - a flag that is set comes with a token in the semaphore, except while the dispatcher is
    about to post or the task has just taken one;
  - a velocity that has not been read is about to be flagged, or flagged, or the task is
    on its way to read it.

  Proved: where the velocity differs from the one last read, the dispatcher is in the
  middle of a command, or the task is between leaving `sem_wait` and `sendSpeedCmd`, or
  the flag is set with a token there (`speed_kept`); so the task gets from `sem_wait` to
  reading it on its own once the dispatcher is done (`Kept.sent`). Without "by a token
  or by the tick" it is false: `cleared_without_token`.
-/

import SeerDIOBoard.Chassis.TaskProofs

namespace SeerDIOBoard.Chassis.Task

open Lib.Machine
open SeerDIOBoard.Can SeerDIOBoard.Mileage

variable {F : Type}

/-- The task is between the return of `sem_wait` and the test of the flag it will find set,
    or has taken the flag and goes to `sendSpeedCmd`. -/
def Heading (s : Task F) : Prop :=
  s.pc = .testNew ∨ s.pc = .clearNew ∨ (s.pc = .ret ∧ s.chassis.currentCmd = 1) ∨ s.pc = .sendSpeed

/-- The task has taken a token and has not yet tested the flag, or has not yet cleared it. -/
def HoldsToken (s : Task F) : Prop := s.took = true ∧ (s.pc = .testNew ∨ s.pc = .clearNew)

structure Pending (s : Task F) : Prop where
  token : s.chassis.bNewSpeedCmd = true → s.hpc ≠ .post → ¬ HoldsToken s → 0 < s.chassis.cmdSem
  unread : s.chassis.velocity ≠ s.lastRead →
    s.hpc = .setFlag ∨ s.chassis.bNewSpeedCmd = true ∨ (s.pc = .ret ∧ s.chassis.currentCmd = 1) ∨ s.pc = .sendSpeed

/-- What the two invariants are about. -/
structure SameView (s s' : Task F) : Prop where
  velocity : s'.chassis.velocity = s.chassis.velocity
  cmdSem : s'.chassis.cmdSem = s.chassis.cmdSem
  bNewSpeedCmd : s'.chassis.bNewSpeedCmd = s.chassis.bNewSpeedCmd
  hpc : s'.hpc = s.hpc
  lastRead : s'.lastRead = s.lastRead

/-- A step that touches none of it and goes from one place outside the four to another. -/
theorem pending_of_view {s s' : Task F} (h : Pending s) (hv : SameView s s')
    (ht : HoldsToken s → HoldsToken s' ∨ s.chassis.bNewSpeedCmd = false)
    (hp : (s.pc = .ret ∧ s.chassis.currentCmd = 1) ∨ s.pc = .sendSpeed →
      (s'.pc = .ret ∧ s'.chassis.currentCmd = 1) ∨ s'.pc = .sendSpeed) : Pending s' := by
  refine ⟨?_, ?_⟩
  · rw [hv.bNewSpeedCmd, hv.hpc, hv.cmdSem]
    intro hb hpost hno
    refine h.token hb hpost ?_
    intro hold
    rcases ht hold with hold' | hclear
    · exact hno hold'
    · rw [hclear] at hb
      cases hb
  · rw [hv.velocity, hv.lastRead, hv.hpc, hv.bNewSpeedCmd]
    intro hne
    rcases h.unread hne with hset | hb | hgo
    · exact Or.inl hset
    · exact Or.inr (Or.inl hb)
    · exact Or.inr (Or.inr (hp hgo))

/-- A step that does not move the task. -/
theorem pending_still {s s' : Task F} (h : Pending s) (hv : SameView s s') (hpc : s'.pc = s.pc)
    (htook : s'.took = s.took) (hcur : s'.chassis.currentCmd = s.chassis.currentCmd) : Pending s' := by
  refine pending_of_view h hv ?_ ?_
  · intro hold
    refine Or.inl ?_
    unfold HoldsToken
    rw [hpc, htook]
    exact hold
  · rw [hpc, hcur]
    exact id

/-! ## The chassis task -/

/-- The places the invariants name. -/
def named : Pc → Bool
  | .testNew | .clearNew | .ret | .sendSpeed => true
  | _ => false

theorem pending_elsewhere {s s' : Task F} (h : Pending s) (hv : SameView s s') (hpc : named s.pc = false) :
    Pending s' := by
  refine pending_of_view h hv ?_ ?_
  · intro hold
    rcases hold with ⟨_, he | he⟩
    · rw [he] at hpc; cases hpc
    · rw [he] at hpc; cases hpc
  · intro hgo
    rcases hgo with ⟨he, _⟩ | he
    · rw [he] at hpc; cases hpc
    · rw [he] at hpc; cases hpc

theorem taskStep_semWait {s : Task F} (h : Pending s) (hpc : s.pc = .semWait) : Pending (s.taskStep .semWait) := by
  simp only [taskStep]
  split
  · refine ⟨?_, ?_⟩
    · intro _ _ hno
      exact absurd ⟨rfl, Or.inl rfl⟩ hno
    · intro hne
      rcases h.unread hne with hset | hb | ⟨he, _⟩ | he
      · exact Or.inl hset
      · exact Or.inr (Or.inl hb)
      · rw [hpc] at he; cases he
      · rw [hpc] at he; cases he
  · exact h

theorem taskStep_testNew {s : Task F} (h : Pending s) (hpc : s.pc = .testNew) : Pending (s.taskStep .testNew) := by
  simp only [taskStep]
  refine pending_of_view h ⟨rfl, rfl, rfl, rfl, rfl⟩ ?_ ?_
  · intro hold
    cases hb : s.chassis.bNewSpeedCmd with
    | true => exact Or.inl ⟨hold.1, Or.inr rfl⟩
    | false => exact Or.inr rfl
  · intro hgo
    rcases hgo with ⟨he, _⟩ | he
    · rw [hpc] at he; cases he
    · rw [hpc] at he; cases he

theorem taskStep_clearNew {s : Task F} : Pending (s.taskStep .clearNew) := by
  refine ⟨?_, ?_⟩
  · intro hb
    cases hb
  · intro _
    exact Or.inr (Or.inr (Or.inl ⟨rfl, rfl⟩))

theorem taskStep_ret {s : Task F} (h : Pending s) (hpc : s.pc = .ret) : Pending (s.taskStep .ret) := by
  simp only [taskStep]
  refine pending_of_view h ⟨rfl, rfl, rfl, rfl, rfl⟩ ?_ ?_
  · intro hold
    rcases hold with ⟨_, he | he⟩
    · rw [hpc] at he; cases he
    · rw [hpc] at he; cases he
  · intro hgo
    rcases hgo with ⟨_, hcur⟩ | he
    · exact Or.inr (if_pos hcur)
    · rw [hpc] at he; cases he

theorem encodes_view (s next : Task F) :
    SameView next (s.encodes next) ∧ (s.encodes next).pc = next.pc ∧ (s.encodes next).took = next.took ∧
      (s.encodes next).chassis = next.chassis := by
  unfold encodes
  split
  · exact ⟨⟨rfl, rfl, rfl, rfl, rfl⟩, rfl, rfl, rfl⟩
  · exact ⟨⟨rfl, rfl, rfl, rfl, rfl⟩, rfl, rfl, rfl⟩

theorem taskStep_sendSpeed {s : Task F} (h : Pending s) (hpc : s.pc = .sendSpeed) :
    Pending (s.taskStep .sendSpeed) := by
  obtain ⟨hv, hpc', htook, hc⟩ :=
    encodes_view s { s.goto (.waitRet .targetSpeed 0) with lastRead := s.chassis.velocity }
  refine pending_still (s := { s.goto (.waitRet .targetSpeed 0) with lastRead := s.chassis.velocity }) ?_ hv hpc' htook
    (congrArg _ hc)
  refine ⟨?_, ?_⟩
  · intro hb hpost _
    refine h.token hb hpost ?_
    intro hold
    rcases hold with ⟨_, he | he⟩
    · rw [hpc] at he; cases he
    · rw [hpc] at he; cases he
  · intro hne
    exact absurd rfl hne

theorem taskStep_pending {s : Task F} (h : Pending s) : Pending (s.taskStep s.pc) := by
  have hmove : ∀ s' : Task F, SameView s s' → named s.pc = false → Pending s' :=
    fun _ hv hn => pending_elsewhere h hv hn
  cases hpc : s.pc with
  | semWait => exact taskStep_semWait h hpc
  | testNew => exact taskStep_testNew h hpc
  | clearNew => exact taskStep_clearNew
  | ret => exact taskStep_ret h hpc
  | sendSpeed => exact taskStep_sendSpeed h hpc
  | openCan => exact h
  | reading ct i => exact h
  | waitStart =>
    simp only [taskStep]
    split
    · exact hmove _ ⟨rfl, rfl, rfl, rfl, rfl⟩ (by rw [hpc]; rfl)
    · exact h
  | waitInited =>
    simp only [taskStep]
    split
    · exact hmove _ ⟨rfl, rfl, rfl, rfl, rfl⟩ (by rw [hpc]; rfl)
    · exact h
  | initMsg =>
    simp only [taskStep]
    split
    · exact hmove _ ⟨rfl, rfl, rfl, rfl, rfl⟩ (by rw [hpc]; rfl)
    · exact hmove _ ⟨rfl, rfl, rfl, rfl, rfl⟩ (by rw [hpc]; rfl)
  | sendQuery =>
    obtain ⟨hv, _⟩ := encodes_view s { s.goto (.waitRet .acturalPos 0) with round := [] }
    exact hmove _ ⟨hv.velocity, hv.cmdSem, hv.bNewSpeedCmd, hv.hpc, hv.lastRead⟩ (by rw [hpc]; rfl)
  | _ => exact hmove _ ⟨rfl, rfl, rfl, rfl, rfl⟩ (by rw [hpc]; rfl)

/-! ## The others -/

theorem readStep_pending {s : Task F} (h : Pending s) {ct : MotorDriverCmdType} {i : Nat}
    (hpc : s.pc = .reading ct i) (r : Read) : Pending (s.readStep ct i r) := by
  have hn : named s.pc = false := by rw [hpc]; rfl
  cases r with
  | frame msg =>
    simp only [readStep]
    split
    · exact pending_elsewhere h ⟨rfl, rfl, rfl, rfl, rfl⟩ hn
    · exact pending_elsewhere h ⟨rfl, rfl, rfl, rfl, rfl⟩ hn
  | err status hs =>
    simp only [readStep]
    split
    · exact h
    · exact pending_elsewhere h ⟨rfl, rfl, rfl, rfl, rfl⟩ hn

theorem storeStep_pending {s : Task F} (h : Pending s) (x y w : F) : Pending (s.storeStep x y w) := by
  unfold storeStep
  split
  case isTrue hi =>
    refine ⟨?_, fun _ => Or.inl rfl⟩
    intro hb _ hno
    exact h.token hb (by rw [hi]; simp) hno
  case isFalse => exact h

theorem setFlagStep_pending {s : Task F} (h : Pending s) : Pending s.setFlagStep := by
  unfold setFlagStep
  split
  · exact ⟨fun _ hpost => absurd rfl hpost, fun _ => Or.inr (Or.inl rfl)⟩
  · exact h

theorem postStep_pending {s : Task F} (h : Pending s) : Pending s.postStep := by
  unfold postStep
  split
  case isTrue hi =>
    refine ⟨fun _ _ _ => Nat.succ_pos _, ?_⟩
    intro hne
    rcases h.unread hne with hset | hor
    · rw [hi] at hset; cases hset
    · exact Or.inr hor
  case isFalse => exact h

theorem pending_onlyConfig {s s' : Task F} (h : Pending s) (hc : OnlyConfig s s') : Pending s' := by
  obtain ⟨p, d, n, hchassis⟩ := hc.chassis
  refine pending_still h ⟨?_, ?_, ?_, hc.hpc, hc.lastRead⟩ hc.pc hc.took ?_
  · rw [hchassis]; rfl
  · rw [hchassis]
  · rw [hchassis]
  · rw [hchassis]

theorem tickStep_pending {s : Task F} (h : Pending s) : Pending s.tickStep := by
  unfold tickStep
  split
  · dsimp only
    split
    case isTrue hblocked =>
      exact pending_elsewhere h ⟨rfl, rfl, rfl, rfl, rfl⟩ (by rw [show s.pc = .semWait from hblocked.1]; rfl)
    · exact pending_still h ⟨rfl, rfl, rfl, rfl, rfl⟩ rfl rfl rfl
  · exact h

theorem step_pending (s : Task F) (e : Ev F) (h : Pending s) : Pending (s.step e) := by
  unfold step
  split
  · exact h
  cases e with
  | store x y w => exact storeStep_pending h x y w
  | setFlag => exact setFlagStep_pending h
  | post => exact postStep_pending h
  | demand pbMsg => exact pending_onlyConfig h (onlyConfig_demandStep s pbMsg)
  | param pbMsg => exact pending_onlyConfig h (onlyConfig_paramStep s pbMsg)
  | tick => exact tickStep_pending h
  | task => exact taskStep_pending h
  | opened ok =>
    dsimp only
    split
    case isTrue hpc => exact pending_elsewhere h ⟨rfl, rfl, rfl, rfl, rfl⟩ (by rw [hpc]; rfl)
    · exact h
  | read r =>
    dsimp only
    split
    case h_1 ct i hpc => exact readStep_pending h hpc r
    · exact h

/-! ## Runs -/

theorem pending_powerUp [Zero F] (protocol : Nat) (retVal : Nat → Int) (retTyp : Nat → MotorDriverCmdType)
    (encoderLines : Int) : Pending (powerUp protocol retVal retTyp encoderLines : Task F) := by
  refine ⟨?_, ?_⟩
  · intro hb
    cases hb
  · intro hne
    exact absurd rfl hne

/-! ## The task alone -/

/-- The task gets from `s` to `t` by its own steps, with nothing in between. -/
def Leads (s t : Task F) : Prop := ∃ k, run step s (List.replicate k .task) = t

theorem Leads.refl (s : Task F) : Leads s s := ⟨0, rfl⟩

theorem Leads.head {s m t : Task F} (hf : s.fault = false) (h1 : s.taskStep s.pc = m) (h : Leads m t) :
    Leads s t := by
  obtain ⟨k, hk⟩ := h
  have hs : s.step .task = m := by
    unfold step
    rw [if_neg (by rw [hf]; simp)]
    exact h1
  refine ⟨k + 1, ?_⟩
  rw [List.replicate_succ, run_cons, hs, hk]

theorem Leads.trans {s t u : Task F} (h : Leads s t) (h' : Leads t u) : Leads s u := by
  obtain ⟨k, rfl⟩ := h
  obtain ⟨j, rfl⟩ := h'
  refine ⟨k + j, ?_⟩
  rw [List.replicate_add, run_append]

/-- Uninterrupted, the pieces of `waitCmd` behind the wait are `takeCmd`. -/
theorem leads_takeCmd {s : Task F} (hf : s.fault = false) (hpc : s.pc = .testNew) :
    Leads s ((s.setChassis s.chassis.takeCmd).goto .ret) := by
  have htest : s.taskStep s.pc = s.goto (if s.chassis.bNewSpeedCmd = true then .clearNew else .testOdo) := by
    rw [hpc]
    rfl
  unfold CChassisDevice.takeCmd
  by_cases hn : s.chassis.bNewSpeedCmd = true
  · rw [if_pos hn] at htest ⊢
    exact .head hf htest (.head hf rfl (.refl _))
  rw [if_neg hn] at htest ⊢
  refine .head hf htest ?_
  by_cases ho : s.chassis.bOdoCmd = true
  · rw [if_pos ho]
    exact .head hf (congrArg s.goto (if_pos ho)) (.head hf rfl (.refl _))
  rw [if_neg ho]
  refine .head hf (congrArg s.goto (if_neg ho)) ?_
  by_cases hq : s.chassis.bStateCmd = true
  · rw [if_pos hq]
    exact .head hf (congrArg s.goto (if_pos hq)) (.head hf rfl (.refl _))
  · rw [if_neg hq]
    exact .head hf (congrArg s.goto (if_neg hq)) (.refl _)

/-- With a token there, the pieces of `waitCmd` run one after the other are `waitCmd`. -/
theorem leads_waitCmd {s : Task F} (hf : s.fault = false) (hpc : s.pc = .semWait) (hsem : 0 < s.chassis.cmdSem) :
    Leads s { (s.setChassis (s.chassis.waitCmd .token).2).goto .ret with took := true } := by
  refine .head (m := { (s.setChassis s.chassis.semTake).goto .testNew with took := true }) hf ?_ ?_
  · rw [hpc]
    exact if_pos hsem
  · exact leads_takeCmd (s := { (s.setChassis s.chassis.semTake).goto .testNew with took := true }) hf rfl

/-- The rest of the speed command the dispatcher is in the middle of. -/
def finish : Hpc → List (Ev F)
  | .idle => []
  | .setFlag => [.setFlag, .post]
  | .post => [.post]

/-- The dispatcher's steps behind the store, with nothing in between, are `newSpeedCmd`. -/
theorem run_newSpeedCmd {s : Task F} (hf : s.fault = false) (hh : s.hpc = .setFlag) :
    run step s (finish s.hpc) = { s.setChassis s.chassis.newSpeedCmd with hpc := .idle } := by
  simp only [hh, finish, run_cons, run_nil, step, hf, setFlagStep, postStep, if_true, setChassis]
  rfl

theorem run_finish {s : Task F} (hf : s.fault = false) :
    (run step s (finish s.hpc)).hpc = .idle ∧ (run step s (finish s.hpc)).fault = false ∧
      (run step s (finish s.hpc)).pc = s.pc ∧ (run step s (finish s.hpc)).lastRead = s.lastRead ∧
      (run step s (finish s.hpc)).chassis.velocity = s.chassis.velocity := by
  cases hh : s.hpc with
  | idle => exact ⟨hh, hf, rfl, rfl, rfl⟩
  | setFlag =>
    rw [← hh, run_newSpeedCmd hf hh]
    exact ⟨rfl, hf, rfl, rfl, rfl⟩
  | post =>
    simp only [finish, run_cons, run_nil, step, hf, postStep, hh, if_true]
    exact ⟨rfl, hf, rfl, rfl, rfl⟩

/-! ## No command is lost -/

/-- What is claimed of a state. -/
structure Kept (s : Task F) : Prop where
  /-- A velocity that has not been read is being handled, or read, or is flagged with a
      token there. -/
  midway : s.chassis.velocity ≠ s.lastRead →
    s.hpc ≠ .idle ∨ Heading s ∨ (s.chassis.bNewSpeedCmd = true ∧ 0 < s.chassis.cmdSem)
  /-- From `sem_wait` it is read without another tick or command. -/
  sent : s.fault = false → s.pc = .semWait → s.chassis.velocity ≠ s.lastRead →
    ∃ t, Leads (run step s (finish s.hpc)) t ∧ t.lastRead = s.chassis.velocity

theorem midway_of_pending {s : Task F} (h : Pending s) (hne : s.chassis.velocity ≠ s.lastRead) :
    s.hpc ≠ .idle ∨ Heading s ∨ (s.chassis.bNewSpeedCmd = true ∧ 0 < s.chassis.cmdSem) := by
  rcases h.unread hne with hset | hb | hgo | hgo
  · rw [hset]
    exact Or.inl (by simp)
  · by_cases hpost : s.hpc = .post
    · rw [hpost]
      exact Or.inl (by simp)
    by_cases hold : HoldsToken s
    · rcases hold.2 with he | he
      · exact Or.inr (Or.inl (Or.inl he))
      · exact Or.inr (Or.inl (Or.inr (Or.inl he)))
    · exact Or.inr (Or.inr ⟨hb, h.token hb hpost hold⟩)
  · exact Or.inr (Or.inl (Or.inr (Or.inr (Or.inl hgo))))
  · exact Or.inr (Or.inl (Or.inr (Or.inr (Or.inr hgo))))

/-- A flagged command with its token: the task takes it and reads the velocity. -/
theorem leads_sendSpeed {s : Task F} (hf : s.fault = false) (hpc : s.pc = .semWait) (hsem : 0 < s.chassis.cmdSem)
    (hb : s.chassis.bNewSpeedCmd = true) : ∃ t, Leads s t ∧ t.lastRead = s.chassis.velocity := by
  have htake : (s.chassis.waitCmd .token).2 = { s.chassis.semTake with bNewSpeedCmd := false, currentCmd := 1 } := by
    unfold CChassisDevice.waitCmd CChassisDevice.takeCmd
    exact if_pos hb
  have hret := leads_waitCmd hf hpc hsem
  rw [htake] at hret
  refine ⟨_, hret.trans (.head hf rfl (.head hf rfl (.refl _))), ?_⟩
  unfold taskStep
  exact (encodes_view _ _).1.lastRead

theorem sent_of_pending {s : Task F} (h : Pending s) (hf : s.fault = false) (hpc : s.pc = .semWait)
    (hne : s.chassis.velocity ≠ s.lastRead) :
    ∃ t, Leads (run step s (finish s.hpc)) t ∧ t.lastRead = s.chassis.velocity := by
  obtain ⟨hidle, hf', hpc', hlast, hvel⟩ := run_finish hf
  rw [← hvel, ← hlast] at hne
  rw [hpc] at hpc'
  have hp : Pending (run step s (finish s.hpc)) := inv_run_all step_pending _ _ h
  rcases midway_of_pending hp hne with hmid | hhead | ⟨hb, hsem⟩
  · exact absurd hidle hmid
  · rcases hhead with he | he | ⟨he, _⟩ | he
    · rw [hpc'] at he; cases he
    · rw [hpc'] at he; cases he
    · rw [hpc'] at he; cases he
    · rw [hpc'] at he; cases he
  · rw [← hvel]
    exact leads_sendSpeed hf' hpc' hsem hb

theorem speed_kept [Zero F] (protocol : Nat) (retVal : Nat → Int) (retTyp : Nat → MotorDriverCmdType)
    (encoderLines : Int) (es : List (Ev F)) : Kept (run step (powerUp protocol retVal retTyp encoderLines) es) := by
  have hp : Pending (run step (powerUp protocol retVal retTyp encoderLines) es) :=
    inv_run_all step_pending es _ (pending_powerUp protocol retVal retTyp encoderLines)
  exact ⟨midway_of_pending hp, sent_of_pending hp⟩

/-! ## A command taken without a token -/

/-- The way of the task into its loop where the CAN device does not open. -/
def boot : List (Ev ℚ) :=
  [.demand (some { bChassisExist := 20, chassisType := doubleDiff, driverBrand := 2 }), .task,
    .param (some .initZero), .task, .opened false, .task]

/-- Between the return of `sem_wait` with a token and `sendSpeedCmd`. -/
def TookToken (s : Task F) : Prop := s.took = true ∧ named s.pc = true

def tickThenCommand : Task ℚ :=
  run step (powerUp 0 (fun _ => 0) (fun _ => .null) 0)
    (boot ++ [.tick, .store 1 0 0, .setFlag, .post, .task, .task, .task])

/-- A tick gets the task past `sem_wait`, a command comes in, and the task takes its flag:
    the token is still there, the flag is not, and the velocity has not been read. -/
theorem cleared_without_token :
    ¬ (tickThenCommand.chassis.velocity ≠ tickThenCommand.lastRead →
      tickThenCommand.hpc ≠ .idle ∨ TookToken tickThenCommand ∨
        (tickThenCommand.chassis.bNewSpeedCmd = true ∧ 0 < tickThenCommand.chassis.cmdSem)) := by
  intro h
  rcases h (by decide) with h | ⟨h, _⟩ | ⟨h, _⟩
  · exact absurd h (by decide)
  · exact absurd h (by decide)
  · exact absurd h (by decide)

end SeerDIOBoard.Chassis.Task
