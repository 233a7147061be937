/-
  SeerDIOBoard.Chassis.BusSpeed — how long a velocity is in force.

  `sendSpeedCmd` computes what each wheel has to do from what it reads of the commanded
  velocity and of the parameters, and sends it to the drives.
  `speed_in_force`: once the drives have answered, they hold these targets until the next
  `sendSpeedCmd`, through any number of odometer rounds, configuration messages, lost ticks
  and commands that wait for their turn. A 0xA005 message that changes the wheels changes
  nothing of what the drives do before that.
-/

import SeerDIOBoard.Chassis.BusRounds

namespace SeerDIOBoard.Chassis.Bus

open Lib.Machine Lib.Servers
open SeerDIOBoard.Can SeerDIOBoard.Mileage

variable {ar : Arith} {d : CDriverCanProtocol} {s : Bus} {v : Nat → Int}

/-- Waiting for the drives to answer `sendSpeedCmd`. -/
def speedRound : Pc → Bool
  | .waitRet ct _ | .reading ct _ => ct = .targetSpeed
  | _ => false

/-- `v` was sent last. In the round that sends it the drives may not have it yet. -/
structure InForce (d : CDriverCanProtocol) (v : Nat → Int) (s : Bus) : Prop where
  bus : s.BusInv d
  looping : Task.looping s.task.pc = true
  vel : s.mileage.vel = v
  target : speedRound s.task.pc = false → ∀ j, j < 2 → (s.motor j).target = toInt32 (v j)

/-- No other velocity is sent. -/
def NoSend (s : Bus) : BusEv → Prop
  | .task _ => s.task.pc ≠ .sendSpeed
  | _ => True

theorem InForce.not_before (h : InForce d v s) : ¬ StartUp.Before s.task.pc := by
  intro hb
  have hl := h.looping
  rcases hb with hb | hb | hb
  all_goals
    rw [hb] at hl
    cases hl

/-! ## The drives' steps -/

/-- Outside a speed round a drive is asked for its position at most. -/
theorem target_answer (h : s.BusInv d) (hout : speedRound s.task.pc = false) (j i : Nat) :
    ((s.answerStep j).motor i).target = (s.motor i).target := by
  cases hreq : s.net.requests j with
  | nil =>
    unfold answerStep
    rw [hreq]
  | cons req rest =>
    have hj := h.lt_two hreq
    have hmem : req ∈ s.net.requests j := by
      rw [hreq]
      exact List.mem_cons_self
    have hround : ∀ w i, s.Round d w i → decide (w.ct = .targetSpeed) = false →
        StrayReq req ∨ Asks d .acturalPos s.mileage.vel j req := by
      intro w i hr hw
      cases w with
      | targetSpeed => cases hw
      | acturalPos => exact Waiting.request hr hj hmem
    have hkind : StrayReq req ∨ Asks d .acturalPos s.mileage.vel j req := by
      have hphase := h.phase
      generalize s.task.pc = pc at hphase hout
      cases pc with
      | waitRet ct i =>
        obtain ⟨w, rfl, -, hr⟩ := hphase
        exact hround w i hr hout
      | reading ct i =>
        obtain ⟨w, rfl, -, hr⟩ := hphase
        exact hround w i hr hout
      | report => exact Or.inl ((hphase.1 j hj).requests req hmem)
      | _ => exact Or.inl ((hphase j hj).requests req hmem)
    rcases hkind with hstray | ⟨f, rfl⟩
    · rw [(answerStep_stray hreq hstray).1]
    · rw [answerStep_cons hreq]
      show (Function.update s.motor j ((s.motor j).handle (d.encode j .acturalPos _ f).cmData) i).target = _
      rw [((s.motor j).handle_pos d j _ f).1, Function.update_eq_self]

/-! ## The task's steps -/

/-- Only `report` is more than one step. -/
theorem taskStep_pc (hpc : s.task.pc ≠ .report) (l : Found) : (s.taskStep ar l).task.pc = (s.task.step .task).pc := by
  unfold taskStep
  split
  case isTrue hf =>
    unfold Task.step
    rw [if_pos hf]
  · cases h : s.task.pc with
    | initMsg => exact congrArg Task.pc (write_frame _ _).1
    | sendSpeed =>
      show (write _ _).task.pc = _
      rw [(write_frame _ _).1]
      rfl
    | sendQuery => exact congrArg Task.pc (write_frame _ _).1
    | report => exact absurd h hpc
    | _ => rfl

theorem looping_taskStep (hl : Task.looping s.task.pc = true) (hf : s.task.fault = false) (l : Found) :
    Task.looping (s.taskStep ar l).task.pc = true := by
  by_cases hpc : s.task.pc = .report
  · rw [taskStep_of_pc hf hpc]
    show Task.looping (s.report ar l).task.pc = true
    rcases (reported_report ar hf hpc l).phases with ⟨-, -, hpc', -⟩ | ⟨-, -, hpc', -⟩
    · rw [hpc']
      rfl
    · rw [hpc']
      rfl
  · rw [taskStep_pc hpc]
    exact StartUp.looping_step hl .task

theorem odo_vel (m : CMileage) (pos : Nat → Int) (planarPos : PlanarPos) :
    (CMileage.odo ar m pos planarPos).vel = m.vel := by
  obtain ⟨_, _, _, _, _, _, _, _, h⟩ : ∃ _ _ _ _ _ _ _ _, CMileage.odo ar m pos planarPos = _ := CMileage.sample_writes
  rw [h, CMileage.readPos_eq]

/-- Only `sendSpeedCmd` computes velocities, and only the drives change what they do. -/
theorem kept_task (hl : Task.looping s.task.pc = true) (hf : s.task.fault = false) (hno : s.task.pc ≠ .sendSpeed)
    (l : Found) : (s.taskStep ar l).mileage.vel = s.mileage.vel ∧ (s.taskStep ar l).motor = s.motor := by
  generalize hpc : s.task.pc = pc at hl hno
  rw [taskStep_of_pc hf hpc]
  have hplain : plain pc = true → ({ s with task := s.task.step .task } : Bus).mileage.vel = s.mileage.vel := by
    intro hp
    show (s.task.step .task).devices.mileage.vel = s.task.devices.mileage.vel
    rw [step_task hf hpc, (sameData_taskStep s.task hp).mileage]
  cases pc with
  | initMsg => cases hl
  | sendSpeed => exact absurd rfl hno
  | sendQuery =>
    refine ⟨?_, (write_frame _ _).2.1⟩
    show (write _ _).task.devices.mileage.vel = _
    rw [(write_frame _ _).1]
    show (s.task.step .task).devices.mileage.vel = s.task.devices.mileage.vel
    rw [step_task hf hpc]
    simp only [Task.taskStep, Task.encodes]
    split
    · rfl
    · rfl
  | report =>
    have hr := reported_report ar hf hpc l
    refine ⟨?_, hr.motor⟩
    show (s.report ar l).mileage.vel = _
    rcases hr.phases with ⟨-, -, -, hm⟩ | ⟨-, -, -, hm⟩
    · rw [hm, odo_vel]
    · rw [hm]
  | _ => exact ⟨hplain rfl, rfl⟩

/-- The task leaves a speed round when every drive has been served. -/
theorem served_of_leaving (h : s.BusInv d) (hw : Wired d s.task) (hf : s.task.fault = false)
    (hin : speedRound s.task.pc = true) {l : Found} (hout : speedRound (s.taskStep ar l).task.pc = false) :
    ∀ j, j < 2 → s.Served .targetSpeed j := by
  have hphase := h.phase
  rw [taskStep_pc (fun hr => by rw [hr] at hin; cases hin)] at hout
  generalize hpc : s.task.pc = pc at hin hphase
  rw [step_task hf hpc] at hout
  cases pc with
  | waitRet ct i =>
    obtain rfl : ct = .targetSpeed := of_decide_eq_true hin
    obtain ⟨w, hct, hi, hround⟩ := hphase
    rw [w.targetSpeed_of_ct hct] at hround
    simp only [Task.taskStep, Task.goto, hw.numOfWheel] at hout
    by_cases hlt : i < 2
    · rw [if_pos hlt] at hout
      cases hout
    · obtain rfl : i = 2 := by omega
      exact fun j hj => (Waiting.all hround j hj).2
  | reading ct i =>
    rw [show s.task.taskStep (.reading ct i) = s.task from rfl, hpc, hin] at hout
    cases hout
  | _ => cases hin

theorem inForce_task (h : InForce d v s) {l : Found} (hst : Steady d s (.task l)) (hno : s.task.pc ≠ .sendSpeed) :
    InForce d v (s.taskStep ar l) := by
  have hf : s.task.fault = false := h.bus.fault.resolve_left h.not_before
  obtain ⟨hvel, hmotor⟩ : (s.taskStep ar l).mileage.vel = s.mileage.vel ∧ (s.taskStep ar l).motor = s.motor :=
    kept_task h.looping hf hno l
  refine ⟨busInv_taskStep h.bus hst.wired l, looping_taskStep h.looping hf l, hvel.trans h.vel, fun hout j hj => ?_⟩
  rw [hmotor]
  cases hin : speedRound s.task.pc with
  | false => exact h.target hin j hj
  | true =>
    have hserved := served_of_leaving h.bus (hst.wired h.not_before) hf hin hout j hj
    rw [← h.vel]
    exact hserved

/-! ## Every step -/

theorem inForce_step (s : Bus) (e : BusEv) (h : InForce d v s) (he : Steady d s e ∧ s.NoSend e) :
    InForce d v (s.step ar e) := by
  obtain ⟨hst, hno⟩ := he
  have hwired := hst.wired h.not_before
  have hbus : (s.step ar e).BusInv d := busInv_step s e h.bus hst
  cases e with
  | beside e hb =>
    have hvel := (beside_vel_pos hb s.task).1
    refine ⟨hbus, StartUp.looping_step h.looping e, hvel.trans h.vel, fun hout => h.target ?_⟩
    rcases beside_pc hb fun hr status hs heq => hst.reads hr status hs (by rw [← heq]; exact hb) (by simp only [heq]) with
      heq | ⟨heq, -⟩ | ⟨heq, -⟩
    · rw [← heq]
      exact hout
    · rw [heq]
      rfl
    · rw [heq]
      rfl
  | task l => exact inForce_task h hst hno
  | read =>
    show InForce d v s.readStep
    have hbus : s.readStep.BusInv d := hbus
    rcases readStep_cases s with heq | ⟨msg, rest, ct, i, -, hf, hpc, heq⟩
    · rw [heq]
      exact h
    · have hfiled := filed_step hwired.driver hf hpc msg
      rw [heq] at hbus ⊢
      refine ⟨hbus, StartUp.looping_step h.looping _, (congrArg CMileage.vel hfiled.mileage).trans h.vel, fun hout => ?_⟩
      refine h.target ?_
      have hpc' : speedRound (s.task.step (.read (.frame msg))).pc = false := hout
      rw [hfiled.pc] at hpc'
      rw [hpc]
      split at hpc'
      · exact hpc'
      · exact hpc'
  | turn j δ =>
    refine ⟨hbus, h.looping, h.vel, fun hout i hi => ?_⟩
    rw [← h.target hout i hi]
    exact (sameRound_turn s j δ).target i
  | answer j =>
    have htask : (s.answerStep j).task = s.task := by
      unfold answerStep
      split
      · rfl
      · rfl
    refine ⟨hbus, ?_, ?_, fun hout i hi => ?_⟩
    · show Task.looping (s.answerStep j).task.pc = true
      rw [htask]
      exact h.looping
    · show (s.answerStep j).task.devices.mileage.vel = v
      rw [htask]
      exact h.vel
    · have hout' : speedRound s.task.pc = false := by
        rw [← htask]
        exact hout
      exact (target_answer h.bus hout' j i).trans (h.target hout' i hi)

theorem inForce_sent (h : s.BusInv d) {l : Found} (hst : Steady d s (.task l)) (hpc : s.task.pc = .sendSpeed) :
    InForce d ((l.param.drive l.planarVel).vel) (s.step ar (.task l)) := by
  have hbefore : ¬ StartUp.Before s.task.pc := by
    simp [StartUp.Before, hpc]
  have hf := h.fault.resolve_left hbefore
  have hsent : (s.taskStep ar l).task.pc = .waitRet .targetSpeed 0 := by
    rw [taskStep_pc (by simp [hpc]), step_task hf hpc]
    simp only [Task.taskStep, encodes_wired (hst.wired hbefore).driver]
    rfl
  refine ⟨busInv_step s (.task l) h hst, ?_, ?_, fun hout => ?_⟩
  · show Task.looping (s.taskStep ar l).task.pc = true
    rw [hsent]
    rfl
  · show (s.taskStep ar l).mileage.vel = _
    rw [taskStep_of_pc hf hpc]
    exact congrArg (fun t => t.devices.mileage.vel) (write_frame _ _).1
  · have hout' : speedRound (s.taskStep ar l).task.pc = false := hout
    rw [hsent] at hout'
    cases hout'

instance (s : Bus) : ∀ e, Decidable (s.NoSend e)
  | .task _ => inferInstanceAs (Decidable (s.task.pc ≠ .sendSpeed))
  | .beside _ _ | .read | .turn _ _ | .answer _ => .isTrue trivial

theorem speed_in_force (ar : Arith) (d : CDriverCanProtocol) (protocol : Nat) (retVal : Nat → Int)
    (retTyp : Nat → MotorDriverCmdType) (encoderLines : Int) (motor : Nat → Motor) (timing : Reporter.Timing)
    {s₀ s s' : Bus} (h₀ : s₀ = powerUp protocol retVal retTyp encoderLines motor timing) (p q : List BusEv) (l : Found)
    (h : Along (step ar) (Steady d) s₀ (p ++ .task l :: q)) (hs : s = run (step ar) s₀ p)
    (hsend : s.task.pc = .sendSpeed) (hq : Along (step ar) NoSend (s.step ar (.task l)) q)
    (hs' : s' = run (step ar) s₀ (p ++ .task l :: q)) (hout : speedRound s'.task.pc = false) :
    ∀ j, j < 2 → (s'.motor j).target = toInt32 ((l.param.drive l.planarVel).vel j) := by
  subst h₀ hs hs'
  obtain ⟨hp, hst, hrest⟩ := (along_append p _ _).mp h
  have hbus := inv_run busInv_step p _ (busInv_powerUp protocol retVal retTyp encoderLines motor timing) hp
  have hforce : InForce d _ (Bus.step ar _ (.task l)) := inForce_sent hbus hst hsend
  rw [run_append, run_cons] at hout ⊢
  exact (inv_run inForce_step q _ hforce (along_and hrest hq)).target hout

/-- A speed command, up to `sendSpeedCmd`. -/
def command : List BusEv :=
  [.task found, .task found, .beside (.store 1 0 1) rfl, .beside .setFlag rfl, .beside .post rfl, .task found, .task found,
    .task found, .task found]

/-- Its round, and a query while the next command comes in. -/
def inForce : List BusEv :=
  [.task found, .answer 1, .answer 0, .read, .task found, .read, .task found] ++ query ++
    [.task found, .beside (.store 0 0 0) rfl]

theorem speed_in_force_query :
    (run (step CMileage.board) board0 (comingUp ++ command)).task.pc = .sendSpeed ∧
      ∀ j, j < 2 →
        ((run (step CMileage.board) board0 (comingUp ++ command ++ .task found :: inForce)).motor j).target =
          toInt32 ((found.param.drive found.planarVel).vel j) := by
  have hsend : (run (step CMileage.board) board0 (comingUp ++ command)).task.pc = .sendSpeed := by decide
  refine ⟨hsend, speed_in_force CMileage.board driver12 0 _ _ 0 _ _ (rfl : board0 = _) (comingUp ++ command) inForce found
    ?_ rfl hsend ?_ rfl ?_⟩
  · rw [List.append_assoc]
    refine steady_comingUp _ ?_
    decide
  · decide
  · decide

end SeerDIOBoard.Chassis.Bus
