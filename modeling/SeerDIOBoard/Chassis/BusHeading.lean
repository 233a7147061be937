/-
  SeerDIOBoard.Chassis.BusHeading — from the encoders of the drives to the heading in the
  odometer message.

  The two ends are far apart: a drive reports the low 32 bits of its position when it comes
  to its request, the replies come in any order and behind strays, ticks are lost and speed
  commands come in between, the reset of a 0xA005 message starts the count anew, and
  `doCalc` brings the angle back into its range after every sample. `heading_reported`: what
  the host gets is the rotation that goes with the way the wheels have gone since the first
  report after the reset, brought into the range once. Only a wheel that goes too far
  between two reports is taken for noise (`Moderate`), and a reset in the middle of a report
  is left out (`Undisturbed`).
-/

import SeerDIOBoard.Chassis.BusRounds
import SeerDIOBoard.Mileage.Heading

namespace SeerDIOBoard.Mileage.CMileage

open SeerDIOBoard.Can

/-! ## Reports of true positions -/

/-- The way a wheel has gone, with the sign it is counted with. -/
def travelled (m : CMileage) (q₀ q : Nat → Int) (i : Nat) : ℚ :=
  (wheelSign 2 i * m.inverse * (q i - q₀ i) : Int)

/-- The object after reports, the first one with the drives at `q₀`, the last one at `q`. -/
structure Headed (ar : Arith) (m : CMileage) (q₀ q : Nat → Int) : Prop where
  staticP : ∀ i, i < 2 → m.staticP i = toInt32 (wheelSign 2 i * m.inverse * q i)
  angle : m.angle = toIocMod ar.turn_pos (-ar.pi) (m.rotation (m.travelled q₀ q))

variable {ar : Arith} {m : CMileage} {pos q₀ q q' : Nat → Int}

theorem toInt32_mul (s n : Int) : toInt32 (s * toInt32 n) = toInt32 (s * n) := Int.mul_bmod_bmod ..

theorem reading_true (har : ar.TwosComplement) (htype : m.chassisType = doubleDiff)
    (hpos : ∀ i, i < 2 → pos i = toInt32 (q i)) {i : Nat} (hi : i < 2) :
    m.reading ar pos i = toInt32 (wheelSign 2 i * m.inverse * q i) := by
  have hn : m.numOfWheel = 2 := numOfWheel_diff htype
  rw [reading_eq (.inl hn) ar pos (by rw [hn]; exact hi), har, hn, hpos i hi, toInt32_mul]

theorem wrapped_zero (ar : Arith) : toIocMod ar.turn_pos (-ar.pi) 0 = 0 := by
  refine (toIocMod_eq_self ar.turn_pos).mpr ?_
  rw [range_eq]
  exact ⟨neg_lt_zero.mpr ar.pi_pos, ar.pi_pos.le⟩

theorem headed_first (har : ar.TwosComplement) (htype : m.chassisType = doubleDiff) (hfirst : m.firstIn = true)
    (hangle : m.angle = 0) (hpos : ∀ i, i < 2 → pos i = toInt32 (q i)) (planarPos : PlanarPos) :
    result ar (m.readPos pos) (m.odoSample ar pos planarPos) = 1 ∧ Headed ar (odo ar m pos planarPos) q q := by
  have hread := readPos_eq m pos
  have hfirst' : (m.readPos pos).firstIn = true := by
    rw [hread]
    exact hfirst
  have hsample : sample ar (m.readPos pos) (m.odoSample ar pos planarPos) = _ := (first_sample hfirst').2
  refine ⟨(first_sample hfirst').1, fun i hi => ?_, ?_⟩
  · rw [odo_staticP pos planarPos (by rw [numOfWheel_diff htype]; exact hi), (odo_frame pos planarPos).2.2]
    exact reading_true har htype hpos hi
  · have hzero : ∀ i, i < 2 → (odo ar m pos planarPos).travelled q q i = 0 := by
      intro i _
      unfold travelled
      rw [sub_self, mul_zero, Int.cast_zero]
    rw [rotation_zero _ hzero, wrapped_zero]
    show (sample ar (m.readPos pos) _).angle = 0
    rw [hsample, hread]
    exact hangle

/-- The count wraps, the way the wheel has gone since the last report does not. -/
theorem wheelDelta_true (har : ar.TwosComplement) (htype : m.chassisType = doubleDiff) {i : Nat} (hi : i < 2)
    (hstatic : m.staticP i = toInt32 (wheelSign 2 i * m.inverse * q i)) (hpos : ∀ i, i < 2 → pos i = toInt32 (q' i))
    (hd : |q' i - q i| ≤ encoderMaxDiff) :
    wheelDelta ar (m.reading ar pos) m.staticP i = wheelSign 2 i * m.inverse * (q' i - q i) ∧
      |wheelDelta ar (m.reading ar pos) m.staticP i| ≤ encoderMaxDiff := by
  have hsign : |wheelSign 2 i * m.inverse| = 1 := by
    rw [← numOfWheel_diff htype]
    exact abs_readSign m i
  have hsize : |wheelSign 2 i * m.inverse * (q' i - q i)| ≤ encoderMaxDiff := by
    rw [abs_mul, hsign, one_mul]
    exact hd
  have hturned := toInt32_sub_turned (wheelSign 2 i * m.inverse) (q i) (q' i - q i)
  rw [add_sub_cancel, toInt32_mul, toInt32_small hsize] at hturned
  have hdelta : wheelDelta ar (m.reading ar pos) m.staticP i = wheelSign 2 i * m.inverse * (q' i - q i) := by
    rw [wheelDelta, har, reading_true har htype hpos hi, hstatic, hturned]
  refine ⟨hdelta, ?_⟩
  rw [hdelta]
  exact hsize

theorem headed_next (har : ar.TwosComplement) (htype : m.chassisType = doubleDiff) (hfirst : m.firstIn = false)
    (h : Headed ar m q₀ q) (hpos : ∀ i, i < 2 → pos i = toInt32 (q' i))
    (hd : ∀ i, i < 2 → |q' i - q i| ≤ encoderMaxDiff) (planarPos : PlanarPos) :
    result ar (m.readPos pos) (m.odoSample ar pos planarPos) = 0 ∧ Headed ar (odo ar m pos planarPos) q₀ q' := by
  have hread := readPos_eq m pos
  have hn := numOfWheel_diff htype
  have hmove := fun i hi => wheelDelta_true har htype hi (h.staticP i hi) hpos (hd i hi)
  have hdelta : ∀ i, i < (m.readPos pos).numOfWheel →
      |wheelDelta ar (m.odoSample ar pos planarPos).p (m.readPos pos).staticP i| ≤ encoderMaxDiff := by
    intro i hi
    rw [hread] at hi ⊢
    exact (hmove i (lt_of_lt_of_eq hi hn)).2
  obtain ⟨hres, w, sp, st, -, hm, hin⟩ := ok_sample (by rw [hread]; exact hfirst) hdelta
  refine ⟨hres, fun i hi => ?_, ?_⟩
  · rw [odo_staticP pos planarPos (by rw [hn]; exact hi), (odo_frame pos planarPos).2.2]
    exact reading_true har htype hpos hi
  · have hw : ∀ i, i < 2 → w i = m.travelled q q' i := by
      intro i hi
      rw [(hin i (by rw [hread]; show i < m.numOfWheel; rw [hn]; exact hi)).1, hread]
      exact congrArg (Int.cast (R := ℚ)) (hmove i hi).1
    have hparams : (odo ar m pos planarPos).rotation = m.rotation ∧
        (odo ar m pos planarPos).travelled = m.travelled := by
      unfold odo
      rw [hm, hread]
      exact ⟨rfl, rfl⟩
    have hturn : ((m.readPos pos).forwardKinematicsTrans w planarPos).theta = m.rotation w := by
      rw [forwardKinematicsTrans, if_pos (by rw [hread]; exact htype.symm), hread]
      rfl
    have hadd : m.rotation (m.travelled q₀ q') = m.rotation (m.travelled q₀ q) + m.rotation w := by
      refine rotation_add m fun i hi => ?_
      rw [hw i hi]
      unfold travelled
      push_cast
      ring
    rw [hparams.1, hparams.2]
    show (sample ar (m.readPos pos) _).angle = _
    rw [hm]
    show lowerAngle ar (raiseAngle ar ((m.readPos pos).angle + _)) = _
    rw [normalised, show (m.odoSample ar pos planarPos).planarPos = planarPos from rfl, hturn, hadd, hread]
    show toIocMod ar.turn_pos (-ar.pi) (m.angle + m.rotation w) = _
    rw [h.angle, toIocMod_add_wrapped]

end SeerDIOBoard.Mileage.CMileage

namespace SeerDIOBoard.Chassis.Bus

open Lib.Machine
open SeerDIOBoard.Can SeerDIOBoard.Mileage
open CMileage (Headed)

variable {ar : Arith} {d : CDriverCanProtocol} {s s' : Bus}

/-! ## The reports of a run -/

/-- Between two reports no wheel goes further than `doCalc` lets through. -/
def Moderate (s : Bus) : BusEv → Prop
  | .task _ =>
    s.task.pc = .report → s.calculated = none → s.mileage.firstIn = false →
      ∀ j, j < 2 → ∀ a ∈ s.answered j, ∀ q ∈ s.trail.getLast?, |a - q j| ≤ CMileage.encoderMaxDiff
  | _ => True

instance (s : Bus) : ∀ e, Decidable (s.Moderate e)
  | .task _ => inferInstanceAs (Decidable (s.task.pc = .report → s.calculated = none → s.mileage.firstIn = false →
      ∀ j, j < 2 → ∀ a ∈ s.answered j, ∀ q ∈ s.trail.getLast?, |a - q j| ≤ CMileage.encoderMaxDiff))
  | .beside _ _ | .read | .turn _ _ | .answer _ => .isTrue trivial

/-- No 0xA005 message is handled while a report is made. -/
def Undisturbed (s : Bus) : BusEv → Prop
  | .beside (.param _) _ => s.calculated = none
  | _ => True

instance (s : Bus) : ∀ e, Decidable (s.Undisturbed e)
  | .beside e _ =>
    match e with
    | .param _ => inferInstanceAs (Decidable (s.calculated = none))
    | .store _ _ _ | .setFlag | .post | .demand _ | .tick | .task | .opened _ | .read _ => .isTrue trivial
  | .task _ | .read | .turn _ _ | .answer _ => .isTrue trivial

/-- Between the steps of a report: where the drives were, and what `doCalc` has made of it. -/
structure Made (s : Bus) (r : Int) : Prop where
  firstIn : s.mileage.firstIn = false
  answered : ∀ q ∈ s.trail.getLast?, ∀ j, j < 2 → s.answered j = some (q j)
  result : r = 1 ∧ s.trail.length = 1 ∨ r = 0 ∧ 1 < s.trail.length

structure HeadInv (ar : Arith) (s : Bus) : Prop where
  first : s.mileage.firstIn = true → s.mileage.angle = 0
  later : s.mileage.firstIn = false →
    ∃ q₀ q, s.trail.head? = some q₀ ∧ s.trail.getLast? = some q ∧ Headed ar s.mileage q₀ q
  made : ∀ r, s.calculated = some r → s.Made r

/-- What the heading is made of. -/
structure SameOdo (m m' : CMileage) : Prop where
  firstIn : m'.firstIn = m.firstIn
  angle : m'.angle = m.angle
  staticP : m'.staticP = m.staticP
  inverse : m'.inverse = m.inverse
  e : m'.e = m.e
  scale : m'.scale = m.scale
  posReduceRate : m'.posReduceRate = m.posReduceRate

theorem SameOdo.refl (m : CMileage) : SameOdo m m := ⟨rfl, rfl, rfl, rfl, rfl, rfl, rfl⟩

theorem SameOdo.headed {m m' : CMileage} (h : SameOdo m m') {q₀ q : Nat → Int} (hm : Headed ar m q₀ q) :
    Headed ar m' q₀ q := by
  have htravel : m'.travelled q₀ q = m.travelled q₀ q := by
    funext i
    simp only [CMileage.travelled, h.inverse]
  refine ⟨fun i hi => ?_, ?_⟩
  · rw [h.staticP, h.inverse]
    exact hm.staticP i hi
  · rw [h.angle, hm.angle, htravel]
    unfold CMileage.rotation CMileage.forwardKinematicsTransDiff
    rw [h.e, h.scale, h.posReduceRate]

theorem HeadInv.of_same (h : HeadInv ar s) (hm : SameOdo s.mileage s'.mileage) (ht : s'.trail = s.trail)
    (hc : s'.calculated = none ∨ s'.calculated = s.calculated ∧ s'.answered = s.answered) : HeadInv ar s' := by
  refine ⟨fun hf => ?_, fun hf => ?_, fun r hr => ?_⟩
  · rw [hm.angle]
    exact h.first (hm.firstIn.symm.trans hf)
  · obtain ⟨q₀, q, h0, hq, hh⟩ := h.later (hm.firstIn.symm.trans hf)
    rw [ht]
    exact ⟨q₀, q, h0, hq, hm.headed hh⟩
  · rcases hc with hnone | ⟨hc, ha⟩
    · rw [hnone] at hr
      cases hr
    · obtain ⟨hfirst, hans, hres⟩ := h.made r (hc.symm.trans hr)
      refine ⟨hm.firstIn.trans hfirst, ?_, ?_⟩
      · rw [ht, ha]
        exact hans
      · rw [ht]
        exact hres

theorem HeadInv.of_reset (hf : s.mileage.firstIn = true) (ha : s.mileage.angle = 0) (hc : s.calculated = none) :
    HeadInv ar s := by
  refine ⟨fun _ => ha, fun hno => ?_, fun r hr => ?_⟩
  · rw [hf] at hno
    cases hno
  · rw [hc] at hr
    cases hr

theorem beside_odo {e : Ev ℚ} (h : besideBus e = true) (t : Task ℚ) :
    SameOdo t.devices.mileage (t.step e).devices.mileage ∨
      (∃ pbMsg, e = .param pbMsg) ∧ (t.step e).devices.mileage.firstIn = true ∧ (t.step e).devices.mileage.angle = 0 := by
  rcases beside_mileage h t with heq | ⟨ct, heq⟩ | ⟨pbMsg, r, devices, he, hr, heq⟩
  · rw [heq]
    exact Or.inl (.refl _)
  · rw [heq]
    exact Or.inl ⟨rfl, rfl, rfl, rfl, rfl, rfl, rfl⟩
  · rw [heq]
    obtain ⟨hfirst, hangle, -, -⟩ := initializeParam_reset hr
    exact Or.inr ⟨⟨pbMsg, he⟩, hfirst, hangle⟩

theorem HeadInv.of_write (h : HeadInv ar s) (t : Bus) (hm : SameOdo s.mileage t.mileage) (ht : t.trail = s.trail)
    (hc : t.calculated = none) (frames : List CanTxMsg) : HeadInv ar (t.write frames) := by
  obtain ⟨htask, -, htrail⟩ := write_frame t frames
  refine h.of_same ?_ (htrail.trans ht) (Or.inl ((write_calculated t frames).trans hc))
  show SameOdo s.mileage (t.write frames).task.devices.mileage
  rw [htask]
  exact hm

/-! ## A report -/

/-- What `doCalc` returns in the report. -/
def reportResult (ar : Arith) (s : Bus) (l : Found) : Int :=
  CMileage.result ar (s.mileage.readPos s.task.chassis.retVal)
    (s.mileage.odoSample ar s.task.chassis.retVal l.planarPos)

theorem report_calculate {l : Found} (hc : s.calculated = none) : s.report ar l = s.calculate ar l := by
  unfold report
  rw [hc]

theorem report_upload {l : Found} {r : Int} (hc : s.calculated = some r) : s.report ar l = s.upload ar l r := by
  unfold report
  rw [hc]

theorem message_angle (ar : Arith) (t : Reporter.Timing) (c : Reporter.Call) :
    (Reporter.report ar t c).1.angle = c.mileage.angle := by
  unfold Reporter.report
  dsimp only
  split
  · rfl
  · rfl

theorem upload_message (ar : Arith) (s : Bus) (l : Found) :
    ∃ msg, (s.upload ar l 0).reported = s.reported ++ [msg] ∧ msg.angle = s.mileage.angle :=
  ⟨_, rfl, message_angle ar _ _⟩

theorem calculate_trail (ar : Arith) (s : Bus) (l : Found) :
    (s.calculate ar l).trail = (if s.mileage.firstIn = true then [] else s.trail) ++ [fun j => (s.answered j).getD 0] :=
  rfl

/-- The drives' positions at a report, with what the object makes of them. -/
theorem calculate_cases (har : ar.TwosComplement) (h : s.BusInv d) (hi : HeadInv ar s) (hw : Wired d s.task)
    (hpc : s.task.pc = .report) (hc : s.calculated = none) {l : Found} (hm : s.Moderate (.task l)) :
    ∃ q : Nat → Int, (∀ j, j < 2 → s.answered j = some (q j)) ∧ (s.calculate ar l).trail.getLast? = some q ∧
      (reportResult ar s l = 1 ∧ (s.calculate ar l).trail = [q] ∧ Headed ar (s.calculate ar l).mileage q q ∨
        reportResult ar s l = 0 ∧ 1 < (s.calculate ar l).trail.length ∧
          ∃ q₀, (s.calculate ar l).trail.head? = some q₀ ∧ Headed ar (s.calculate ar l).mileage q₀ q) := by
  have hphase := h.phase
  rw [hpc] at hphase
  have hserved := hphase.2
  have hq : ∀ j, j < 2 → s.answered j = some ((s.answered j).getD 0) ∧
      s.task.chassis.retVal j = toInt32 ((s.answered j).getD 0) := by
    intro j hj
    obtain ⟨q, hans, hv⟩ := hserved j hj
    rw [hans, Option.getD_some]
    exact ⟨rfl, hv⟩
  refine ⟨fun j => (s.answered j).getD 0, fun j hj => (hq j hj).1, ?_, ?_⟩
  · rw [calculate_trail, List.getLast?_concat]
  · rw [calculate_trail]
    cases hfirst : s.mileage.firstIn with
    | true =>
      obtain ⟨hres, hheaded⟩ := CMileage.headed_first har hw.chassisType hfirst (hi.first hfirst) (fun j hj => (hq j hj).2)
        l.planarPos
      exact Or.inl ⟨hres, rfl, hheaded⟩
    | false =>
      obtain ⟨q₀, q, h0, hlast, hheaded⟩ := hi.later hfirst
      have hmove : ∀ j, j < 2 → |(s.answered j).getD 0 - q j| ≤ CMileage.encoderMaxDiff := fun j hj =>
        hm hpc hc hfirst j hj _ (hq j hj).1 q hlast
      obtain ⟨hres, hnext⟩ := CMileage.headed_next har hw.chassisType hfirst hheaded (fun j hj => (hq j hj).2) hmove
        l.planarPos
      rw [if_neg Bool.false_ne_true]
      refine Or.inr ⟨hres, ?_, q₀, ?_, hnext⟩
      · have hne : s.trail ≠ [] := by
          intro hnil
          rw [hnil] at h0
          cases h0
        rw [List.length_append]
        exact Nat.lt_add_of_pos_left (List.length_pos_iff.mpr hne)
      · rw [List.head?_append, h0]
        rfl

theorem headInv_calculate (har : ar.TwosComplement) (h : s.BusInv d) (hi : HeadInv ar s) (hw : Wired d s.task)
    (hpc : s.task.pc = .report) (hc : s.calculated = none) {l : Found} (hm : s.Moderate (.task l)) :
    HeadInv ar (s.calculate ar l) := by
  have hfirst : (s.calculate ar l).mileage.firstIn = false := (CMileage.odo_frame _ _).1
  obtain ⟨q, hans, hlast, hcases⟩ := calculate_cases har h hi hw hpc hc hm
  refine ⟨fun hno => ?_, fun _ => ?_, fun r hr => ⟨hfirst, fun q' hq' j hj => ?_, ?_⟩⟩
  · rw [hfirst] at hno
    cases hno
  · rcases hcases with ⟨-, htrail, hheaded⟩ | ⟨-, -, q₀, hhead, hheaded⟩
    · exact ⟨q, q, by rw [htrail]; rfl, hlast, hheaded⟩
    · exact ⟨q₀, q, hhead, hlast, hheaded⟩
  · obtain rfl : q = q' := Option.some.inj (hlast.symm.trans hq')
    exact hans j hj
  · obtain rfl : reportResult ar s l = r := Option.some.inj hr
    rcases hcases with ⟨hres, htrail, -⟩ | ⟨hres, hlen, -⟩
    · exact Or.inl ⟨hres, by rw [htrail]; rfl⟩
    · exact Or.inr ⟨hres, hlen⟩

/-- The message of a report changes nothing of the pose. -/
theorem headInv_upload (hi : HeadInv ar s) (l : Found) (r : Int) : HeadInv ar (s.upload ar l r) := by
  unfold upload
  dsimp only
  split
  · exact hi.of_same (.refl _) rfl (Or.inl rfl)
  · exact hi.of_same (.refl _) rfl (Or.inl rfl)

/-! ## Runs -/

structure Sound (ar : Arith) (d : CDriverCanProtocol) (s : Bus) : Prop where
  bus : s.BusInv d
  head : HeadInv ar s

theorem headInv_task (har : ar.TwosComplement) (h : Sound ar d s) {l : Found} (hs : Steady d s (.task l))
    (hm : s.Moderate (.task l)) : HeadInv ar (s.taskStep ar l) := by
  by_cases hf : s.task.fault = true
  · unfold taskStep
    rw [if_pos hf]
    exact h.head
  have hf := Bool.eq_false_of_not_eq_true hf
  have hsame : ∀ pc, s.task.pc = pc → plain pc = true → HeadInv ar { s with task := s.task.step .task } := by
    intro pc hpc hp
    have hnone : s.calculated = none := h.bus.stored.of_pc fun hr => by
      rw [← hpc, hr] at hp
      cases hp
    refine h.head.of_same ?_ rfl (Or.inl hnone)
    show SameOdo s.mileage (s.task.step .task).devices.mileage
    rw [step_task hf hpc, (sameData_taskStep s.task hp).mileage]
    exact .refl _
  have hnone : s.task.pc ≠ .report → s.calculated = none := h.bus.stored.of_pc
  generalize hpc : s.task.pc = pc at hsame hnone
  rw [taskStep_of_pc hf hpc]
  cases pc with
  | initMsg =>
    refine h.head.of_write { s with task := s.task.step .task } ?_ rfl (hnone (by simp)) _
    show SameOdo s.mileage (s.task.step .task).devices.mileage
    rw [step_task hf hpc]
    simp only [Task.taskStep]
    split
    · exact .refl _
    · exact .refl _
  | sendSpeed =>
    exact h.head.of_write
      { s with task := setMileage (s.task.step .task) { s.mileage with vel := (l.param.drive l.planarVel).vel } }
      ⟨rfl, rfl, rfl, rfl, rfl, rfl, rfl⟩ rfl (hnone (by simp)) _
  | sendQuery =>
    refine h.head.of_write { s with task := s.task.step .task, answered := fun _ => none } ?_ rfl (hnone (by simp)) _
    show SameOdo s.mileage (s.task.step .task).devices.mileage
    rw [step_task hf hpc]
    simp only [Task.taskStep, Task.encodes]
    split
    · exact .refl _
    · exact .refl _
  | report =>
    have hwired := hs.wired (by simp [StartUp.Before, hpc])
    show HeadInv ar (s.report ar l)
    cases hc : s.calculated with
    | none =>
      rw [report_calculate hc]
      exact headInv_calculate har h.bus h.head hwired hpc hc hm
    | some r =>
      rw [report_upload hc]
      exact headInv_upload h.head l r
  | _ => exact hsame _ rfl rfl

theorem answered_answer (h : s.BusInv d) (j : Nat) :
    (s.answerStep j).calculated = none ∨
      (s.answerStep j).calculated = s.calculated ∧ (s.answerStep j).answered = s.answered := by
  cases hreq : s.net.requests j with
  | nil =>
    have hsame : s.answerStep j = s := by
      unfold answerStep
      rw [hreq]
    rw [hsame]
    exact Or.inr ⟨rfl, rfl⟩
  | cons req rest =>
    have hcalc : (s.answerStep j).calculated = s.calculated := by rw [answerStep_cons hreq]
    by_cases hc : s.calculated = none
    · exact Or.inl (hcalc.trans hc)
    · exact Or.inr ⟨hcalc, h.answerStep_kept hc hreq⟩

theorem sound_step (har : ar.TwosComplement) (s : Bus) (e : BusEv) (h : Sound ar d s)
    (hs : (Steady d s e ∧ s.Moderate e) ∧ s.Undisturbed e) : Sound ar d (s.step ar e) := by
  obtain ⟨⟨hst, hm⟩, hu⟩ := hs
  refine ⟨busInv_step s e h.bus hst, ?_⟩
  cases e with
  | beside e he =>
    rcases beside_odo he s.task with hsame | ⟨⟨pbMsg, rfl⟩, hf, ha⟩
    · exact h.head.of_same hsame rfl (Or.inr ⟨rfl, rfl⟩)
    · exact .of_reset hf ha hu
  | task l => exact headInv_task har h hst hm
  | read =>
    show HeadInv ar s.readStep
    rcases readStep_cases s with heq | ⟨msg, rest, ct, i, -, hf, hpc, heq⟩
    · rw [heq]
      exact h.head
    · rw [heq]
      refine h.head.of_same ?_ rfl (Or.inr ⟨rfl, rfl⟩)
      have hwired := hst.wired (by simp [StartUp.Before, hpc])
      show SameOdo s.task.devices.mileage (s.task.step (.read (.frame msg))).devices.mileage
      rw [(filed_step hwired.driver hf hpc msg).mileage]
      exact .refl _
  | turn j δ => exact h.head.of_same (.refl _) rfl (Or.inr ⟨rfl, rfl⟩)
  | answer j =>
    have hans := answered_answer h.bus j
    show HeadInv ar (s.answerStep j)
    refine h.head.of_same ?_ ?_ hans
    · show SameOdo s.mileage (s.answerStep j).task.devices.mileage
      unfold answerStep
      split
      · exact .refl _
      · exact .refl _
    · unfold answerStep
      split
      · rfl
      · rfl

/-- Up to the return of `doCalc` no message is sent. After it the first report since a reset
    sends none; every later one sends the rotation of the way from the positions of that first
    report to those of this one. -/
def HeadingReported (ar : Arith) (s : Bus) : BusEv → Prop
  | .task l =>
    s.task.fault = false → s.task.pc = .report →
      (s.calculated = none → (s.step ar (.task l)).reported = s.reported) ∧
        (s.calculated ≠ none → ∃ q₀ q, s.trail.head? = some q₀ ∧ (∀ j, j < 2 → s.answered j = some (q j)) ∧
          (s.trail.length = 1 ∧ (s.step ar (.task l)).reported = s.reported ∨
            1 < s.trail.length ∧ ∃ msg, (s.step ar (.task l)).reported = s.reported ++ [msg] ∧
              CMileage.Heading ar (s.mileage.rotation (s.mileage.travelled q₀ q)) msg.angle))
  | _ => True

theorem reported_of_inv (s : Bus) (e : BusEv) (h : Sound ar d s) : HeadingReported ar s e := by
  cases e with
  | task l =>
    intro hf hpc
    have hstep : s.step ar (.task l) = s.report ar l := taskStep_of_pc hf hpc
    rw [hstep]
    refine ⟨fun hc => ?_, fun hc => ?_⟩
    · rw [report_calculate hc]
      rfl
    · obtain ⟨r, hr⟩ := Option.ne_none_iff_exists'.mp hc
      obtain ⟨hfirst, hans, hres⟩ := h.head.made r hr
      obtain ⟨q₀, q, hhead, hlast, hheaded⟩ := h.head.later hfirst
      refine ⟨q₀, q, hhead, hans q hlast, ?_⟩
      rw [report_upload hr]
      rcases hres with ⟨rfl, hlen⟩ | ⟨rfl, hlen⟩
      · exact Or.inl ⟨hlen, rfl⟩
      · obtain ⟨msg, hmsg, hangle⟩ := upload_message ar s l
        refine Or.inr ⟨hlen, msg, hmsg, ?_⟩
        rw [hangle, hheaded.angle]
        exact CMileage.heading_toIocMod ar _
  | _ => trivial

theorem heading_reported (ar : Arith) (har : ar.TwosComplement) (d : CDriverCanProtocol) (protocol : Nat)
    (retVal : Nat → Int) (retTyp : Nat → MotorDriverCmdType) (encoderLines : Int) (motor : Nat → Motor)
    (timing : Reporter.Timing) (es : List BusEv)
    (h : Along (step ar) (Steady d) (powerUp protocol retVal retTyp encoderLines motor timing) es)
    (hm : Along (step ar) Moderate (powerUp protocol retVal retTyp encoderLines motor timing) es)
    (hu : Along (step ar) Undisturbed (powerUp protocol retVal retTyp encoderLines motor timing) es) :
    Along (step ar) (HeadingReported ar) (powerUp protocol retVal retTyp encoderLines motor timing) es := by
  have hstart : Sound ar d (powerUp protocol retVal retTyp encoderLines motor timing) :=
    ⟨busInv_powerUp protocol retVal retTyp encoderLines motor timing, .of_reset rfl rfl rfl⟩
  exact along_of_inv (sound_step har) (fun s e hi _ => reported_of_inv s e hi) es _ hstart (along_and (along_and h hm) hu)

/-- Two rounds: drive 0 turns by 5 in each of them. -/
def twoRounds : List BusEv :=
  comingUp ++ (query ++ .task found :: .task found :: (query ++ [.task found, .task found]))

theorem heading_reported_twoRounds :
    Along (step CMileage.board) (HeadingReported CMileage.board) board0 twoRounds ∧
      (run (step CMileage.board) board0 twoRounds).reported.length = 1 ∧
      (run (step CMileage.board) board0 twoRounds).trail.map (fun q => (q 0, q 1)) = [(12, 9), (17, 9)] := by
  refine ⟨heading_reported CMileage.board (fun _ => rfl) driver12 0 _ _ 0 _ _ _ (steady_comingUp _ ?_) ?_ ?_, ?_, ?_⟩
  · decide
  · decide
  · decide
  · decide +kernel
  · decide +kernel

end SeerDIOBoard.Chassis.Bus
