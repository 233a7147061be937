/-
  SeerDIOBoard.Chassis.OdoTick — an odometry tick wakes the chassis task, over every
  interleaving of the task with the dispatcher and the timer.

  The tick sets `bOdoCmd` and posts nothing: it counts on interrupting the task in
  `sem_wait`, where `newSpeedCmd` posts the semaphore behind its flag. A tick that comes
  behind the test of `bOdoCmd`, or together with a speed command, which is served first,
  leaves the flag set for the next `sem_wait`, and so does one between `timer_settime` and
  the first `sem_wait`; with no token there the task blocks.

  `odo_tick_iff`: in every state of a run the task gets out of a `sem_wait` it is in with
  the flag set (`Wakes`), exactly when it goes into each `sem_wait` with a token if the flag
  is set, or with the dispatcher on its way to post one (`TokenLeft`).
-/

import SeerDIOBoard.Chassis.SpeedRequests

namespace SeerDIOBoard.Chassis.Task

open Lib.Machine
open SeerDIOBoard.Can SeerDIOBoard.Mileage

variable {F : Type}

/-- Neither a tick nor the start of another speed command. -/
def Unprompted : Ev F → Prop
  | .tick | .store _ _ _ => False
  | _ => True

/-- From here the task leaves `sem_wait` without another tick or speed command. -/
def Leaves (s : Task F) : Prop := ∃ es : List (Ev F), (∀ e ∈ es, Unprompted e) ∧ (run step s es).pc ≠ .semWait

/-- A flagged query does not wait in `sem_wait` for another tick or command. -/
def Wakes (s : Task F) : Prop := s.fault = false → s.pc = .semWait → s.chassis.bOdoCmd = true → Leaves s

/-- The task is at the end of a round, or in front of the first one: its next step goes to
    `sem_wait`. -/
def EndsRound (s : Task F) : Ev F → Prop
  | .task =>
    match s.pc with
    | .timerSet => True
    | .ret => s.chassis.currentCmd ≠ 1 ∧ s.chassis.currentCmd ≠ 2
    | .waitRet ct i => s.numOfWheel ≤ i ∧ ct ≠ .acturalPos
    | .report => True
    | _ => False
  | .read (.err status _) =>
    match s.pc with
    | .reading ct _ => ct ≠ .acturalPos ∧ ¬ (status = EINTR ∧ s.chassis.bNewSpeedCmd = true)
    | _ => False
  | _ => False

/-- A token is there, or the dispatcher is about to post one. -/
def Token (s : Task F) : Prop := 0 < s.chassis.cmdSem ∨ s.hpc ≠ .idle

/-- Into `sem_wait` with the flag set only with a token. -/
def TokenLeft (s : Task F) (e : Ev F) : Prop :=
  s.fault = false → EndsRound s e → s.chassis.bOdoCmd = true → Token s

/-! ## Out of `sem_wait` -/

/-- What the steps other than ticks and commands leave of a task that blocks. -/
structure Blocked (s : Task F) : Prop where
  pc : s.pc = .semWait
  cmdSem : s.chassis.cmdSem = 0
  hpc : s.hpc = .idle

theorem Blocked.onlyConfig {s s' : Task F} (h : Blocked s) (hc : OnlyConfig s s') : Blocked s' := by
  obtain ⟨p, d, n, hchassis⟩ := hc.chassis
  refine ⟨hc.pc.trans h.pc, ?_, hc.hpc.trans h.hpc⟩
  rw [hchassis]
  exact h.cmdSem

theorem blocked_step {s : Task F} (h : Blocked s) {e : Ev F} (he : Unprompted e) : Blocked (s.step e) := by
  unfold step
  split
  · exact h
  cases e with
  | tick => exact he.elim
  | store x y w => exact he.elim
  | setFlag =>
    dsimp only [setFlagStep]
    rw [if_neg (by rw [h.hpc]; simp)]
    exact h
  | post =>
    dsimp only [postStep]
    rw [if_neg (by rw [h.hpc]; simp)]
    exact h
  | demand pbMsg => exact h.onlyConfig (onlyConfig_demandStep s pbMsg)
  | param pbMsg => exact h.onlyConfig (onlyConfig_paramStep s pbMsg)
  | task =>
    dsimp only
    rw [h.pc]
    dsimp only [taskStep]
    rw [if_neg (by rw [h.cmdSem]; decide)]
    exact h
  | opened ok =>
    dsimp only
    rw [if_neg (by rw [h.pc]; simp)]
    exact h
  | read r =>
    dsimp only
    rw [h.pc]
    exact h

theorem blocked_run {s : Task F} (h : Blocked s) (es : List (Ev F)) (hes : ∀ e ∈ es, Unprompted e) :
    Blocked (run step s es) := by
  induction es generalizing s with
  | nil => exact h
  | cons e es ih =>
    rw [List.forall_mem_cons] at hes
    exact ih (blocked_step h hes.1) hes.2

theorem run_finish_token {s : Task F} (hf : s.fault = false) (h : Token s) :
    0 < (run step s (finish s.hpc)).chassis.cmdSem := by
  cases hh : s.hpc with
  | idle => exact h.resolve_right fun hne => hne hh
  | setFlag =>
    rw [← hh, run_newSpeedCmd hf hh]
    exact Nat.succ_pos _
  | post =>
    simp only [finish, run_cons, run_nil, step, hf, postStep, hh, if_true]
    exact Nat.succ_pos _

theorem finish_unprompted (h : Hpc) : ∀ e ∈ (finish h : List (Ev F)), Unprompted e := by
  cases h with
  | idle => exact fun e he => absurd he List.not_mem_nil
  | setFlag => exact List.forall_mem_cons.mpr ⟨trivial, List.forall_mem_cons.mpr ⟨trivial, fun e he => absurd he List.not_mem_nil⟩⟩
  | post => exact List.forall_mem_cons.mpr ⟨trivial, fun e he => absurd he List.not_mem_nil⟩

/-- The task gets out exactly with a token, or with one on its way. -/
theorem leaves_iff {s : Task F} (hf : s.fault = false) (hpc : s.pc = .semWait) : Leaves s ↔ Token s := by
  constructor
  · rintro ⟨es, hes, hout⟩
    by_contra hno
    obtain ⟨hsem, hidle⟩ := not_or.mp hno
    exact hout (blocked_run ⟨hpc, Nat.eq_zero_of_not_pos hsem, not_not.mp hidle⟩ es hes).pc
  · intro htok
    -- the command in progress is finished, then the token is taken
    have hsem := run_finish_token hf htok
    obtain ⟨-, hf', hpc', -⟩ := run_finish hf
    refine ⟨finish s.hpc ++ [.task], ?_, ?_⟩
    · intro e he
      rcases List.mem_append.mp he with he | he
      · exact finish_unprompted _ e he
      · rw [List.mem_singleton.mp he]
        trivial
    · rw [run_snoc, step, if_neg (by rw [hf']; exact Bool.false_ne_true)]
      rw [hpc', hpc]
      show (if 0 < (run step s (finish s.hpc)).chassis.cmdSem then _ else _ : Task F).pc ≠ _
      rw [if_pos hsem]
      rintro ⟨⟩

/-! ## Steps -/

/-- What `Wakes` comes to. -/
def Backed (s : Task F) : Prop := s.fault = false → s.pc = .semWait → s.chassis.bOdoCmd = true → Token s

theorem wakes_iff (s : Task F) : Wakes s ↔ Backed s := by
  unfold Wakes Backed
  exact forall_congr' fun hf => forall_congr' fun hpc => forall_congr' fun _ => leaves_iff hf hpc

/-- The flag is set behind an interrupted wait. -/
def Flagged (s : Task F) : Prop := s.pc = .eintr → s.chassis.bOdoCmd = true

theorem Flagged.still {s s' : Task F} (h : Flagged s) (hpc : s'.pc = s.pc)
    (hodo : s'.chassis.bOdoCmd = s.chassis.bOdoCmd) : Flagged s' := by
  unfold Flagged
  rw [hpc, hodo]
  exact h

/-- A place in the loop that only an interrupted wait does not lead to. -/
def Inside (pc : Pc) : Prop := looping pc = true ∧ pc ≠ .eintr

theorem Flagged.inside {s : Task F} (h : Inside s.pc) : Flagged s := fun he => absurd he h.2

theorem inside_ite {c : Prop} [Decidable c] {a b : Pc} (ha : Inside a) (hb : Inside b) : Inside (if c then a else b) := by
  split
  · exact ha
  · exact hb

theorem inside_afterWait (ct : MotorDriverCmdType) : Inside (afterWait ct) := inside_ite ⟨rfl, (by simp)⟩ ⟨rfl, (by simp)⟩

/-- The task stays in its loop. -/
theorem inside_taskStep (s : Task F) {pc : Pc} (h : looping pc = true) : Inside (s.taskStep pc).pc ∨ s.taskStep pc = s := by
  cases pc with
  | waitStart | waitInited | openCan | initMsg => cases h
  | semWait =>
    simp only [taskStep]
    split
    · exact .inl ⟨rfl, (by simp)⟩
    · exact .inr rfl
  | reading ct i => exact .inr rfl
  | timerSet | clearNew | clearOdo | clearState | report => exact .inl ⟨rfl, (by simp [taskStep])⟩
  | eintr | testNew | testOdo | testState => exact .inl (inside_ite ⟨rfl, (by simp)⟩ ⟨rfl, (by simp)⟩)
  | ret => exact .inl (inside_ite ⟨rfl, (by simp)⟩ (inside_ite ⟨rfl, (by simp)⟩ ⟨rfl, (by simp)⟩))
  | waitRet ct i => exact .inl (inside_ite ⟨rfl, (by simp)⟩ (inside_afterWait ct))
  | sendSpeed =>
    obtain ⟨-, hpc, -⟩ := encodes_view s { s.goto (.waitRet .targetSpeed 0) with lastRead := s.chassis.velocity }
    refine .inl ?_
    rw [taskStep, hpc]
    exact ⟨rfl, (by simp)⟩
  | sendQuery =>
    obtain ⟨-, hpc, -⟩ := encodes_view s { s.goto (.waitRet .acturalPos 0) with round := [] }
    refine .inl ?_
    rw [taskStep, hpc]
    exact ⟨rfl, (by simp)⟩

/-- Before the loop nothing is interrupted. -/
theorem outside_taskStep (s : Task F) (h : looping s.pc = false) : (s.taskStep s.pc).pc ≠ .eintr := by
  have hstill : s.pc ≠ .eintr := by
    intro he
    rw [he] at h
    cases h
  cases hpc : s.pc with
  | waitStart =>
    simp only [taskStep]
    split
    · rintro ⟨⟩
    · exact hstill
  | waitInited =>
    simp only [taskStep]
    split
    · rintro ⟨⟩
    · exact hstill
  | openCan => exact hstill
  | initMsg =>
    simp only [taskStep]
    split
    · exact hstill
    · dsimp only
      split
      · simp
      · simp
  | _ =>
    rw [hpc] at h
    cases h

theorem flagged_taskStep {s : Task F} (h : Flagged s) : Flagged (s.taskStep s.pc) := by
  cases hl : looping s.pc with
  | true =>
    rcases inside_taskStep s hl with hin | heq
    · exact .inside hin
    · rw [heq]
      exact h
  | false =>
    exact fun he => absurd he (outside_taskStep s hl)

theorem flagged_readStep {s : Task F} (h : Flagged s) (ct : MotorDriverCmdType) (i : Nat) (r : Read) :
    Flagged (s.readStep ct i r) := by
  cases r with
  | frame msg =>
    simp only [readStep]
    split
    · exact h.still rfl rfl
    · exact .inside (inside_ite ⟨rfl, (by simp)⟩ ⟨rfl, (by simp)⟩)
  | err status hs =>
    simp only [readStep]
    split
    · exact h
    · exact .inside (inside_afterWait ct)

theorem flagged_tickStep {s : Task F} (h : Flagged s) : Flagged s.tickStep := by
  unfold tickStep
  split
  · have hset : (s.setChassis s.chassis.queryOdoCmd).chassis.bOdoCmd = true := rfl
    dsimp only
    split
    · exact fun _ => hset
    · exact fun _ => hset
  · exact h

/-- What the dispatcher's steps leave of the wait. -/
structure SameWait (s s' : Task F) : Prop where
  pc : s'.pc = s.pc
  bOdoCmd : s'.chassis.bOdoCmd = s.chassis.bOdoCmd
  token : Token s → Token s'

theorem storeStep_wait (s : Task F) (x y w : F) : SameWait s (s.storeStep x y w) := by
  unfold storeStep
  split
  · exact ⟨rfl, rfl, fun _ => .inr (by simp)⟩
  · exact ⟨rfl, rfl, id⟩

theorem setFlagStep_wait (s : Task F) : SameWait s s.setFlagStep := by
  unfold setFlagStep
  split
  · exact ⟨rfl, rfl, fun _ => .inr (by simp)⟩
  · exact ⟨rfl, rfl, id⟩

theorem postStep_wait (s : Task F) : SameWait s s.postStep := by
  unfold postStep
  split
  · exact ⟨rfl, rfl, fun _ => .inl (Nat.succ_pos _)⟩
  · exact ⟨rfl, rfl, id⟩

theorem OnlyConfig.wait {s s' : Task F} (h : OnlyConfig s s') : SameWait s s' := by
  obtain ⟨p, d, n, hchassis⟩ := h.chassis
  refine ⟨h.pc, ?_, ?_⟩
  · rw [hchassis]
  · unfold Token
    rw [hchassis, h.hpc]
    exact id

theorem flagged_step (s : Task F) (e : Ev F) (h : Flagged s) : Flagged (s.step e) := by
  unfold step
  split
  · exact h
  have hstill : ∀ {s' : Task F}, SameWait s s' → Flagged s' := fun hw => h.still hw.pc hw.bOdoCmd
  cases e with
  | store x y w => exact hstill (storeStep_wait s x y w)
  | setFlag => exact hstill (setFlagStep_wait s)
  | post => exact hstill (postStep_wait s)
  | demand pbMsg => exact hstill (onlyConfig_demandStep s pbMsg).wait
  | param pbMsg => exact hstill (onlyConfig_paramStep s pbMsg).wait
  | tick => exact flagged_tickStep h
  | task => exact flagged_taskStep h
  | opened ok =>
    dsimp only
    split
    · cases ok with
      | true => rintro ⟨⟩
      | false => rintro ⟨⟩
    · exact h
  | read r =>
    dsimp only
    split
    · exact flagged_readStep h _ _ r
    · exact h

/-! ## What one step says of `Wakes` -/

theorem backed_wait {s s' : Task F} (h : Backed s) (hf : s.fault = false) (hw : SameWait s s') : Backed s' := by
  intro _ hpc hodo
  rw [hw.pc] at hpc
  rw [hw.bOdoCmd] at hodo
  exact hw.token (h hf hpc hodo)

theorem backed_elsewhere {s : Task F} (h : s.pc ≠ .semWait) : Backed s := fun _ hpc => absurd hpc h

/-- Into `sem_wait`. -/
theorem backed_goto {s : Task F} (hf : s.fault = false) :
    Backed (s.goto .semWait) ↔ (s.chassis.bOdoCmd = true → Token s) :=
  ⟨fun h => h hf rfl, fun h _ _ => h⟩

theorem backed_taskStep {s : Task F} (hf : s.fault = false) (hflag : Flagged s) (h : Backed s) :
    Backed (s.taskStep s.pc) ↔ TokenLeft s .task := by
  unfold TokenLeft EndsRound
  simp only [hf, true_imp_iff]
  have helse : ∀ {s' : Task F}, s'.pc ≠ .semWait → (Backed s' ↔ (False → s.chassis.bOdoCmd = true → Token s)) :=
    fun hpc => ⟨fun _ hno => hno.elim, fun _ => backed_elsewhere hpc⟩
  have hsame : Backed s ↔ (False → s.chassis.bOdoCmd = true → Token s) := ⟨fun _ hno => hno.elim, fun _ => h⟩
  cases hpc : s.pc with
  | openCan => exact hsame
  | reading ct i => exact hsame
  | waitStart | waitInited | semWait =>
    simp only [taskStep]
    split
    · exact helse (by simp)
    · exact hsame
  | initMsg =>
    simp only [taskStep]
    split
    · refine ⟨fun _ hno => hno.elim, fun _ hf' => ?_⟩
      cases hf'
    · refine helse ?_
      dsimp only
      split
      · simp
      · simp
  | timerSet =>
    simp only [taskStep]
    rw [backed_goto hf]
    exact ⟨fun hb _ => hb, fun hb => hb trivial⟩
  | eintr =>
    have hset : s.chassis.bOdoCmd = true := hflag hpc
    simp only [taskStep, if_pos hset]
    exact helse (by simp)
  | clearNew | clearOdo | clearState => exact helse (by simp [taskStep])
  | testNew | testOdo | testState =>
    simp only [taskStep]
    split
    · exact helse (by simp)
    · exact helse (by simp)
  | sendSpeed =>
    obtain ⟨-, hto, -⟩ := encodes_view s { s.goto (.waitRet .targetSpeed 0) with lastRead := s.chassis.velocity }
    exact helse (by rw [taskStep, hto]; simp)
  | sendQuery =>
    obtain ⟨-, hto, -⟩ := encodes_view s { s.goto (.waitRet .acturalPos 0) with round := [] }
    exact helse (by rw [taskStep, hto]; simp)
  | ret =>
    simp only [taskStep]
    by_cases h1 : s.chassis.currentCmd = 1
    · rw [if_pos h1]
      exact ⟨fun _ hno => absurd h1 hno.1, fun _ => backed_elsewhere (by simp)⟩
    rw [if_neg h1]
    by_cases h2 : s.chassis.currentCmd = 2
    · rw [if_pos h2]
      exact ⟨fun _ hno => absurd h2 hno.2, fun _ => backed_elsewhere (by simp)⟩
    · rw [if_neg h2, backed_goto hf]
      exact ⟨fun hb _ => hb, fun hb => hb ⟨h1, h2⟩⟩
  | waitRet ct i =>
    simp only [taskStep, afterWait]
    by_cases hi : i < s.numOfWheel
    · rw [if_pos hi]
      exact ⟨fun _ hno => absurd hno.1 (by omega), fun _ => backed_elsewhere (by simp)⟩
    rw [if_neg hi]
    by_cases hct : ct = .acturalPos
    · rw [if_pos hct]
      exact ⟨fun _ hno => absurd hct hno.2, fun _ => backed_elsewhere (by simp)⟩
    · rw [if_neg hct, backed_goto hf]
      exact ⟨fun hb _ => hb, fun hb => hb ⟨by omega, hct⟩⟩
  | report => exact ⟨fun hb _ => hb hf rfl, fun hb _ _ => hb trivial⟩

theorem backed_readStep {s : Task F} (hf : s.fault = false) {ct : MotorDriverCmdType} {i : Nat}
    (hpc : s.pc = .reading ct i) (r : Read) : Backed (s.readStep ct i r) ↔ TokenLeft s (.read r) := by
  unfold TokenLeft EndsRound
  simp only [hf, true_imp_iff]
  cases r with
  | frame msg =>
    refine ⟨fun _ hno => hno.elim, fun _ => ?_⟩
    simp only [readStep]
    split
    · exact backed_elsewhere (by rw [show _ = s.pc from rfl, hpc]; simp)
    · refine backed_elsewhere ?_
      dsimp only
      split
      · simp
      · simp
  | err status hs =>
    simp only [hpc, readStep]
    by_cases hretry : status = EINTR ∧ s.chassis.bNewSpeedCmd = true
    · rw [if_pos hretry]
      exact ⟨fun _ hno => absurd hretry hno.2, fun _ => backed_elsewhere (by rw [hpc]; simp)⟩
    rw [if_neg hretry]
    by_cases hct : ct = .acturalPos
    · rw [afterWait, if_pos hct]
      exact ⟨fun _ hno => absurd hct hno.1, fun _ => backed_elsewhere (by simp)⟩
    · rw [afterWait, if_neg hct, backed_goto hf]
      exact ⟨fun hb _ => hb, fun hb => hb ⟨hct, hretry⟩⟩

/-- A tick that finds the task in `sem_wait` gets it out, unless a token does. -/
theorem backed_tickStep {s : Task F} (h : Backed s) : Backed s.tickStep := by
  unfold tickStep
  split
  · dsimp only
    split
    · exact backed_elsewhere (by simp)
    case isFalse hrun =>
      intro _ hpc _
      refine .inl (Nat.pos_of_ne_zero fun hsem => hrun ⟨hpc, hsem⟩)
  · exact h

theorem backed_step (s : Task F) (e : Ev F) (hflag : Flagged s) (h : Backed s) : Backed (s.step e) ↔ TokenLeft s e := by
  by_cases hf : s.fault = true
  · have hs : s.step e = s := if_pos hf
    rw [hs]
    exact ⟨fun _ hno => absurd (hf.symm.trans hno) (by decide), fun _ => h⟩
  have hf' : s.fault = false := Bool.eq_false_of_not_eq_true hf
  have hkept : ∀ {s' : Task F}, SameWait s s' → ¬ EndsRound s e → (Backed s' ↔ TokenLeft s e) :=
    fun hw hno => ⟨fun _ _ hend => absurd hend hno, fun _ => backed_wait h hf' hw⟩
  unfold step
  rw [if_neg hf]
  cases e with
  | store x y w => exact hkept (storeStep_wait s x y w) id
  | setFlag => exact hkept (setFlagStep_wait s) id
  | post => exact hkept (postStep_wait s) id
  | demand pbMsg => exact hkept (onlyConfig_demandStep s pbMsg).wait id
  | param pbMsg => exact hkept (onlyConfig_paramStep s pbMsg).wait id
  | tick => exact ⟨fun _ _ hend => hend.elim, fun _ => backed_tickStep h⟩
  | task => exact backed_taskStep hf' hflag h
  | opened ok =>
    refine ⟨fun _ _ hend => hend.elim, fun _ => ?_⟩
    dsimp only
    split
    · refine backed_elsewhere ?_
      cases ok with
      | true => rintro ⟨⟩
      | false => rintro ⟨⟩
    · exact h
  | read r =>
    dsimp only
    split
    case h_1 ct i hpc => exact backed_readStep hf' hpc r
    case h_2 hno =>
      refine ⟨fun _ _ hend => ?_, fun _ => h⟩
      cases r with
      | frame msg => exact hend.elim
      | err status hs =>
        cases hpc : s.pc with
        | reading ct i => exact absurd hpc (hno ct i)
        | _ =>
          simp only [EndsRound, hpc] at hend

/-! ## Runs -/

theorem odo_tick_iff [Zero F] (protocol : Nat) (retVal : Nat → Int) (retTyp : Nat → MotorDriverCmdType)
    (encoderLines : Int) (es : List (Ev F)) :
    (∀ p, p <+: es → Wakes (run step (powerUp protocol retVal retTyp encoderLines) p)) ↔
      Along step TokenLeft (powerUp protocol retVal retTyp encoderLines) es := by
  have hstart : Flagged (powerUp protocol retVal retTyp encoderLines : Task F) := by rintro ⟨⟩
  have hiff := reached_iff_along (I := Wakes) (P := fun _ _ => True) (Q := TokenLeft)
    (fun s e h _ => flagged_step s e h)
    (fun s e hflag _ hs => (wakes_iff _).trans (backed_step s e hflag ((wakes_iff s).mp hs))) es
    (powerUp protocol retVal retTyp encoderLines) hstart ((wakes_iff _).mpr (backed_elsewhere (by simp [powerUp])))
  exact hiff (along_of_all (fun _ _ => trivial) es _)

/-! ## A tick behind the test -/

theorem eintr_ne_zero : EINTR ≠ 0 := by decide

/-- The tick comes while the task waits for the reply to a speed command, and interrupts
    the `read`. -/
def tickWhileReading : Task ℚ :=
  run step (powerUp 0 (fun _ => 0) (fun _ => .null) 0)
    (boot ++ [.store 1 0 0, .setFlag, .post, .task, .task, .task, .task, .task, .task, .tick,
      .read (.err EINTR eintr_ne_zero)])

theorem tick_unanswered : ¬ Wakes tickWhileReading := by
  rw [wakes_iff]
  intro h
  rcases h rfl rfl rfl with hsem | hhpc
  · exact absurd hsem (by decide)
  · exact hhpc rfl

end SeerDIOBoard.Chassis.Task
