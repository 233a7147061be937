/-
  SeerDIOBoard.Chassis.BusProgress — a round comes to its end.

  Once the frames of a round are sent, the chassis task is back in `sem_wait` after at most
  as many steps of its own and of the drives as `rank` says, in whatever order the drives
  answer, if nobody else interferes; and while it is not, one of them has a step to do.
  The task waits in `read` only while a reply is on its way.
-/

import SeerDIOBoard.Chassis.BusRounds

namespace SeerDIOBoard.Chassis

open Lib.Machine Lib.Servers
open SeerDIOBoard.Can SeerDIOBoard.Mileage

namespace Bus

variable {d : CDriverCanProtocol} {s : Bus} {ar : Arith}

/-! ## Steps to the end -/

/-- A step of the task or of a drive that has something to do. -/
def Moves (s : Bus) : BusEv → Prop
  | .task _ => isReading s.task.pc = false
  | .read => isReading s.task.pc = true ∧ s.net.inbox ≠ []
  | .answer j => s.net.requests j ≠ []
  | .beside _ _ | .turn _ _ => False

/-- `report` is two steps. -/
def pcRank (calculated : Option Int) : Pc → Nat
  | .waitRet _ i => 2 * (2 - i) + 3
  | .reading _ i => 2 * (2 - i) + 2
  | .report => if calculated = none then 2 else 1
  | _ => 0

theorem pcRank_report_le (calculated : Option Int) : pcRank calculated .report ≤ 2 := by
  show (if calculated = none then 2 else 1) ≤ 2
  split
  · exact Nat.le_refl 2
  · exact Nat.le_succ 1

/-- A request is a reply to come. -/
def rank (s : Bus) : Nat :=
  pcRank s.calculated s.task.pc + 2 * ((s.net.requests 0).length + (s.net.requests 1).length) + s.net.inbox.length

/-- In a round, or back from it. -/
structure Busy (d : CDriverCanProtocol) (s : Bus) : Prop where
  inv : s.BusInv d
  wired : Wired d s.task
  pc : awayPc s.task.pc = false ∨ s.task.pc = .semWait

theorem Busy.away (h : Busy d s) (hg : s.task.pc ≠ .semWait) : awayPc s.task.pc = false := h.pc.resolve_right hg

theorem Busy.fault (h : Busy d s) : s.task.fault = false := by
  refine h.inv.fault.resolve_left fun hb => ?_
  rcases h.pc with hp | hp
  · rw [before_away hb] at hp
    cases hp
  · simp [StartUp.Before, hp] at hb

theorem rank_answer {j : Nat} (hj : j < 2) {req : Nat → UInt8} {rest : List (Nat → UInt8)}
    (hreq : s.net.requests j = req :: rest) : (s.answerStep j).rank < s.rank := by
  have hone : (((s.motor j).drive j).answer req).toList.length ≤ 1 := by
    cases ((s.motor j).drive j).answer req with
    | none => exact Nat.zero_le 1
    | some msg => exact Nat.le_refl 1
  have hlen : (s.answerStep j).net.inbox.length = s.net.inbox.length + (((s.motor j).drive j).answer req).toList.length := by
    rw [answerStep_cons hreq]
    exact List.length_append
  have hself : (s.answerStep j).net.requests j = rest := by
    rw [answerStep_cons hreq]
    show (s.net.reply j _).requests j = rest
    rw [s.net.reply_self, hreq, List.tail_cons]
  have hother : ∀ l, l ≠ j → (s.answerStep j).net.requests l = s.net.requests l := by
    intro l hl
    rw [answerStep_cons hreq]
    exact s.net.reply_other hl _
  have hpc : pcRank (s.answerStep j).calculated (s.answerStep j).task.pc = pcRank s.calculated s.task.pc := by
    rw [answerStep_cons hreq]
  unfold rank
  rw [hpc, hlen]
  obtain rfl | rfl : j = 0 ∨ j = 1 := by omega
  · rw [hself, hother 1 (by decide), hreq, List.length_cons]
    omega
  · rw [hself, hother 0 (by decide), hreq, List.length_cons]
    omega

theorem rank_read {w : Waited} {i : Nat} (hd : s.task.chassis.driverProtocol = some d) (hf : s.task.fault = false)
    (hpc : s.task.pc = .reading w.ct i) (hi : i < 2) (h : s.Round d w i) (hin : s.net.inbox ≠ []) :
    s.readStep.rank < s.rank ∧ awayPc s.readStep.task.pc = false := by
  obtain ⟨msg, rest, hin⟩ := List.exists_cons_of_ne_nil hin
  have hnet : s.readStep.net = s.net.take := by rw [readStep_cons hin hf (by rw [hpc]; rfl)]
  have hlen : s.net.take.inbox.length + 1 = s.net.inbox.length := by
    show s.net.inbox.tail.length + 1 = _
    rw [hin]
    rfl
  have hreq : s.net.take.requests = s.net.requests := rfl
  unfold rank
  rw [hnet, hreq, hpc]
  rcases round_read hd hf hpc h hin with ⟨hpc', -⟩ | ⟨hpc', -⟩
  · rw [hpc']
    refine ⟨?_, rfl⟩
    simp only [pcRank]
    omega
  · rw [hpc']
    refine ⟨?_, rfl⟩
    simp only [pcRank]
    omega

theorem rank_task (h : Busy d s) (hg : s.task.pc ≠ .semWait) (hr : isReading s.task.pc = false) (l : Found) :
    (s.taskStep ar l).rank < s.rank ∧
      (awayPc (s.taskStep ar l).task.pc = false ∨ (s.taskStep ar l).task.pc = .semWait) := by
  have haway := h.away hg
  have hphase := h.inv.phase
  have hf := h.fault
  generalize hpc : s.task.pc = pc at haway hr hphase
  rw [taskStep_of_pc hf hpc]
  cases pc with
  | waitRet ct i =>
    obtain ⟨w, rfl, hi, -⟩ := hphase
    have hnext : (s.task.step .task).pc = if i < 2 then .reading w.ct i else Task.afterWait w.ct := by
      rw [step_task hf hpc]
      simp only [Task.taskStep, Task.goto, h.wired.numOfWheel]
    show rank { s with task := s.task.step .task } < _ ∧
      (awayPc (s.task.step .task).pc = false ∨ (s.task.step .task).pc = .semWait)
    unfold rank
    dsimp only
    rw [hnext, hpc]
    by_cases hlt : i < 2
    · rw [if_pos hlt]
      refine ⟨?_, Or.inl rfl⟩
      simp only [pcRank]
      omega
    · rw [if_neg hlt]
      cases w with
      | targetSpeed =>
        refine ⟨?_, Or.inr rfl⟩
        show pcRank _ .semWait + _ + _ < _
        simp only [pcRank]
        omega
      | acturalPos =>
        refine ⟨?_, Or.inl rfl⟩
        have hle := pcRank_report_le s.calculated
        show pcRank s.calculated .report + _ + _ < 2 * (2 - i) + 3 + _ + _
        omega
  | reading ct i => cases hr
  | report =>
    have hrep := reported_report ar hf hpc l
    show (s.report ar l).rank < _ ∧ (_ ∨ (s.report ar l).task.pc = _)
    unfold rank
    rw [hrep.net, hpc]
    rcases hrep.phases with ⟨hnone, hsome, hpc', -⟩ | ⟨hsome, -, hpc', -⟩
    · refine ⟨?_, Or.inl (congrArg awayPc hpc')⟩
      rw [hpc']
      simp only [pcRank]
      rw [if_pos hnone, if_neg hsome]
      omega
    · refine ⟨?_, Or.inr hpc'⟩
      rw [hpc']
      simp only [pcRank]
      rw [if_neg hsome]
      omega
  | _ => cases haway

theorem busy_down (s : Bus) (e : BusEv) (h : Busy d s) (hg : s.task.pc ≠ .semWait) (hm : s.Moves e) :
    Busy d (s.step ar e) ∧ (s.step ar e).rank < s.rank := by
  have hcalm : calm e = true := by
    cases e with
    | beside e he => exact hm.elim
    | turn j δ => exact hm.elim
    | _ => rfl
  have hinv : (s.step ar e).BusInv d := busInv_step s e h.inv (steady_of_calm h.wired hcalm)
  have hwired : Wired d (s.step ar e).task := wired_step h.wired hcalm
  cases e with
  | beside e he => exact hm.elim
  | turn j δ => exact hm.elim
  | task l =>
    obtain ⟨hlt, hpc⟩ : (s.taskStep ar l).rank < s.rank ∧ _ := rank_task h hg hm l
    exact ⟨⟨hinv, hwired, hpc⟩, hlt⟩
  | read =>
    obtain ⟨hr, hin⟩ := hm
    have hphase := h.inv.phase
    cases hpc : s.task.pc with
    | reading ct i =>
      rw [hpc] at hphase
      obtain ⟨w, rfl, hi, hround⟩ := hphase
      obtain ⟨hlt, haway⟩ := rank_read h.wired.driver h.fault hpc hi hround hin
      exact ⟨⟨hinv, hwired, Or.inl haway⟩, hlt⟩
    | _ =>
      rw [hpc] at hr
      cases hr
  | answer j =>
    obtain ⟨req, rest, hreq⟩ := List.exists_cons_of_ne_nil hm
    have hj := h.inv.lt_two hreq
    have hpc : (s.answerStep j).task = s.task := by rw [answerStep_cons hreq]
    refine ⟨⟨hinv, hwired, ?_⟩, rank_answer hj hreq⟩
    show awayPc (s.answerStep j).task.pc = false ∨ (s.answerStep j).task.pc = .semWait
    rw [hpc]
    exact h.pc

/-- In `read` with nothing to read, a drive still has its request. -/
theorem busy_moves (l : Found) (s : Bus) (h : Busy d s) (_ : s.task.pc ≠ .semWait) : ∃ e, s.Moves e := by
  cases hr : isReading s.task.pc with
  | false => exact ⟨.task l, hr⟩
  | true =>
    have hphase := h.inv.phase
    cases hpc : s.task.pc with
    | reading ct i =>
      rw [hpc] at hphase
      obtain ⟨w, -, hi, hround⟩ := hphase
      rcases Waiting.pending hround hi with hin | ⟨j, -, hreq⟩
      · exact ⟨.read, hr, hin⟩
      · exact ⟨.answer j, hreq⟩
    | _ =>
      rw [hpc] at hr
      cases hr

theorem rounds_end (ar : Arith) (d : CDriverCanProtocol) (protocol : Nat) (retVal : Nat → Int)
    (retTyp : Nat → MotorDriverCmdType) (encoderLines : Int) (motor : Nat → Motor) (timing : Reporter.Timing)
    (es : List BusEv) (h : Along (step ar) (Steady d) (powerUp protocol retVal retTyp encoderLines motor timing) es)
    (hw : Wired d (run (step ar) (powerUp protocol retVal retTyp encoderLines motor timing) es).task)
    (hpc : awayPc (run (step ar) (powerUp protocol retVal retTyp encoderLines motor timing) es).task.pc = false) (l : Found) :
    let s := run (step ar) (powerUp protocol retVal retTyp encoderLines motor timing) es
    (∀ fs, Along (step ar) Moves s fs → s.rank ≤ fs.length →
        ∃ p, p <+: fs ∧ (run (step ar) s p).task.pc = .semWait) ∧
      ∃ fs, Along (step ar) Moves s fs ∧ (run (step ar) s fs).task.pc = .semWait := by
  intro s
  have hbusy : Busy d s :=
    ⟨inv_run (I := fun s => BusInv d s) (fun s e hi he => busInv_step s e hi he) es _
      (busInv_powerUp protocol retVal retTyp encoderLines motor timing) h, hw, Or.inl hpc⟩
  refine ⟨fun fs hfs hlen => ?_, ?_⟩
  · exact reached_of_rank (I := Busy d) (G := fun s => s.task.pc = .semWait) rank (busy_moves l) busy_down fs s hbusy hfs hlen
  · exact exists_run_of_rank (I := Busy d) (G := fun s => s.task.pc = .semWait) rank (busy_moves l) busy_down s hbusy

/-- The drives have been asked, and none has answered. -/
theorem rounds_end_query :
    ∃ fs, Along (step CMileage.board) Moves (run (step CMileage.board) board0 (comingUp ++ query.take 10)) fs ∧
      (run (step CMileage.board) (run (step CMileage.board) board0 (comingUp ++ query.take 10)) fs).task.pc = .semWait := by
  have hcalm : ∀ e ∈ query.take 10, calm e = true := by decide
  refine (rounds_end CMileage.board driver12 0 _ _ 0 _ _ _ (steady_comingUp _ hcalm) ?_ rfl found).2
  refine ⟨rfl, rfl, fun j hj => ?_⟩
  obtain rfl | rfl : j = 0 ∨ j = 1 := by omega
  · rfl
  · rfl

end Bus

end SeerDIOBoard.Chassis
