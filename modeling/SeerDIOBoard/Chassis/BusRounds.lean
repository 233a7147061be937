/-
  SeerDIOBoard.Chassis.BusRounds — the rounds of the chassis task, with the drives on the
  bus (see `SeerDIOBoard.Chassis.Bus`).

  A round is a frame for every wheel and the wait for as many replies. What `waitCmdRet`
  asks of a frame does not say which round or which drive it is from, and the answers to the
  frames of `doInit` are still in the queue when the first round begins. That every reply is
  counted in the round it belongs to, once, is a matter of what can be on the bus
  (`PhaseAt`): in a round the request or the reply of each drive that has not been counted,
  behind strays, and nothing but strays at any other time.

  `rounds_closed`: so a report has the drives' positions since the query it belongs to, a
  speed command ends with each drive at its velocity, and nothing is left for the next round.
-/

import SeerDIOBoard.Chassis.BusFrames
import SeerDIOBoard.Chassis.RollOver

namespace SeerDIOBoard.Chassis

open Function (update)
open Lib.Machine Lib.Servers
open SeerDIOBoard.Can SeerDIOBoard.Mileage

/-! ## Rounds -/

namespace Bus

/-- What the reply of drive `j` in a round is worth. -/
def Carries (d : CDriverCanProtocol) (s : Bus) : Waited → Nat → CanMsg → Prop
  | .targetSpeed, j, msg =>
    (s.motor j).target = toInt32 (s.mileage.vel j) ∧ ∀ val, d.decode val msg = ⟨true, .targetSpeed, val⟩
  | .acturalPos, j, msg => ∃ q, s.answered j = some q ∧ ∀ val, d.decode val msg = ⟨true, .acturalPos, toInt32 q⟩

/-- What is known of drive `j` when its reply has been read. -/
def Served (s : Bus) : Waited → Nat → Prop
  | .targetSpeed, j => (s.motor j).target = toInt32 (s.mileage.vel j)
  | .acturalPos, j => ∃ q, s.answered j = some q ∧ s.task.chassis.retVal j = toInt32 q

/-- The wait for the replies to `w`, with `i` of them read. -/
def Round (d : CDriverCanProtocol) (s : Bus) (w : Waited) (i : Nat) : Prop :=
  Waiting sender StrayReq (Stray d) (Asks d w s.mileage.vel) (Carries d s w) (s.Served w) s.net 2 i

/-- Nothing of any round is on the bus. -/
def Silent (d : CDriverCanProtocol) (s : Bus) : Prop := ∀ j, j < 2 → Quiet sender StrayReq (Stray d) s.net j

def PhaseAt (d : CDriverCanProtocol) (s : Bus) : Pc → Prop
  | .waitRet ct i => ∃ w : Waited, w.ct = ct ∧ i ≤ 2 ∧ s.Round d w i
  | .reading ct i => ∃ w : Waited, w.ct = ct ∧ i < 2 ∧ s.Round d w i
  | .report => s.Silent d ∧ ∀ j, j < 2 → s.Served .acturalPos j
  | _ => s.Silent d

/-- Between the two steps of a report the object has the positions the drives were asked for. -/
def Stored (s : Bus) : Prop :=
  s.calculated ≠ none →
    s.task.pc = .report ∧ ∀ j, j < 2 → ∃ q, s.answered j = some q ∧ s.mileage.pos j = toInt32 q

structure BusInv (d : CDriverCanProtocol) (s : Bus) : Prop where
  phase : s.PhaseAt d s.task.pc
  two : ∀ j, 2 ≤ j → s.net.requests j = []
  opened : StartUp.Before s.task.pc ∨ s.can1Open = true
  fault : StartUp.Before s.task.pc ∨ s.task.fault = false
  stored : s.Stored

/-- A driver for the two drives: motor `j` is drive `j`. -/
structure Wired (d : CDriverCanProtocol) (t : Task ℚ) : Prop where
  driver : t.chassis.driverProtocol = some d
  chassisType : t.devices.mileage.chassisType = doubleDiff
  motorRxId : ∀ j, j < 2 → d.motorRxId j = some (0x601 + j)

/-- From `doInit` on the configuration is in force, `open` does not fail, and `read` fails only
    when a speed command interrupts it. -/
structure Steady (d : CDriverCanProtocol) (s : Bus) (e : BusEv) : Prop where
  wired : ¬ StartUp.Before s.task.pc → Wired d s.task
  opens : s.task.pc = .openCan → ∀ h, e ≠ .beside (.opened false) h
  reads : isReading s.task.pc = true → ∀ status hs h, e = .beside (.read (.err status hs)) h →
    status = Task.EINTR ∧ s.task.chassis.bNewSpeedCmd = true

theorem Wired.numOfWheel {d : CDriverCanProtocol} {t : Task ℚ} (h : Wired d t) : t.numOfWheel = 2 := by
  unfold Task.numOfWheel CMileage.numOfWheel
  rw [h.chassisType]
  rfl

/-- Away from the waits and the report. -/
def awayPc : Pc → Bool
  | .waitRet _ _ | .reading _ _ | .report => false
  | _ => true

variable {d : CDriverCanProtocol} {s s' : Bus}

theorem phaseAt_away {pc : Pc} (h : awayPc pc = true) : s.PhaseAt d pc ↔ s.Silent d := by
  cases pc with
  | waitRet ct i => cases h
  | reading ct i => cases h
  | report => cases h
  | _ => exact Iff.rfl

/-- What the rounds depend on. -/
structure SameRound (s s' : Bus) : Prop where
  net : s'.net = s.net
  answered : s'.answered = s.answered
  target : ∀ j, (s'.motor j).target = (s.motor j).target
  vel : s'.mileage.vel = s.mileage.vel
  retVal : s'.task.chassis.retVal = s.task.chassis.retVal

theorem SameRound.carries (h : SameRound s s') : Carries d s' = Carries d s := by
  funext w j msg
  cases w with
  | targetSpeed => simp only [Carries, h.target, h.vel]
  | acturalPos => simp only [Carries, h.answered]

theorem SameRound.served (h : SameRound s s') : s'.Served = s.Served := by
  funext w j
  cases w with
  | targetSpeed => simp only [Served, h.target, h.vel]
  | acturalPos => simp only [Served, h.answered, h.retVal]

theorem SameRound.phaseAt (h : SameRound s s') (pc : Pc) : s'.PhaseAt d pc ↔ s.PhaseAt d pc := by
  have hround : ∀ w i, s'.Round d w i ↔ s.Round d w i := by
    intro w i
    unfold Round
    rw [h.carries, h.served, h.vel, h.net]
  have hsilent : s'.Silent d ↔ s.Silent d := by
    unfold Silent
    rw [h.net]
  cases pc with
  | waitRet ct i => simp only [PhaseAt, hround]
  | reading ct i => simp only [PhaseAt, hround]
  | report => simp only [PhaseAt, hsilent, h.served]
  | _ => exact hsilent

theorem Stored.of_pc (h : s.Stored) (hpc : s.task.pc ≠ .report) : s.calculated = none := by
  by_contra hne
  exact hpc (h hne).1

theorem stored_of_none (h : s.calculated = none) : s.Stored := fun hne => absurd h hne

theorem Stored.of_same (h : s.Stored) (hc : s'.calculated = s.calculated)
    (hpc : s.task.pc = .report → s'.task.pc = .report)
    (ha : s'.answered = s.answered) (hp : s'.mileage.pos = s.mileage.pos) : s'.Stored := by
  intro hne
  obtain ⟨hr, hpos⟩ := h (hc ▸ hne)
  rw [ha, hp]
  exact ⟨hpc hr, hpos⟩

/-! ## The drives' steps -/

theorem sameRound_turn (s : Bus) (j : Nat) (δ : Int) :
    SameRound s { s with motor := update s.motor j { s.motor j with position := (s.motor j).position + δ } } := by
  refine ⟨rfl, rfl, fun i => ?_, rfl, rfl⟩
  by_cases hi : i = j
  · subst hi
    show (update s.motor i _ i).target = _
    rw [Function.update_self]
  · show (update s.motor j _ i).target = _
    rw [Function.update_of_ne hi]

theorem answerStep_cons {j : Nat} {req : Nat → UInt8} {rest : List (Nat → UInt8)} (h : s.net.requests j = req :: rest) :
    s.answerStep j =
      { s with
        motor := update s.motor j ((s.motor j).handle req)
        net := s.net.reply j (((s.motor j).drive j).answer req)
        answered := if isRead req = true then update s.answered j (some (s.motor j).position) else s.answered } := by
  unfold answerStep
  rw [h]

/-- The other drives are as they were. -/
theorem answerStep_other {j l : Nat} {req : Nat → UInt8} {rest : List (Nat → UInt8)} (h : s.net.requests j = req :: rest)
    (hl : l ≠ j) : (s.answerStep j).motor l = s.motor l ∧ (s.answerStep j).answered l = s.answered l := by
  rw [answerStep_cons h]
  refine ⟨Function.update_of_ne hl _ _, ?_⟩
  dsimp only
  split
  · exact Function.update_of_ne hl _ _
  · rfl

/-- An initialisation frame changes nothing in a drive. -/
theorem answerStep_stray {j : Nat} {req : Nat → UInt8} {rest : List (Nat → UInt8)} (h : s.net.requests j = req :: rest)
    (hstray : StrayReq req) : (s.answerStep j).motor = s.motor ∧ (s.answerStep j).answered = s.answered := by
  rw [answerStep_cons h, show req = bytesOf CDriverCanProtocol.initData from hstray, Motor.handle_init,
    if_neg (by rw [Motor.isRead_init]; exact Bool.false_ne_true)]
  exact ⟨Function.update_eq_self j s.motor, rfl⟩

theorem BusInv.lt_two (h : s.BusInv d) {j : Nat} {req : Nat → UInt8} {rest : List (Nat → UInt8)}
    (hreq : s.net.requests j = req :: rest) : j < 2 := by
  by_contra hj
  rw [h.two j (by omega)] at hreq
  cases hreq

/-- In a report the drives have nothing but strays to answer. -/
theorem BusInv.answerStep_kept (h : s.BusInv d) (hc : s.calculated ≠ none) {j : Nat} {req : Nat → UInt8}
    {rest : List (Nat → UInt8)} (hreq : s.net.requests j = req :: rest) : (s.answerStep j).answered = s.answered := by
  have hphase := h.phase
  rw [(h.stored hc).1] at hphase
  have hmem : req ∈ s.net.requests j := by
    rw [hreq]
    exact List.mem_cons_self
  exact (answerStep_stray hreq ((hphase.1 j (h.lt_two hreq)).requests req hmem)).2

/-- The reply to the request of the round. -/
theorem answerStep_asked {w : Waited} {j : Nat} {req : Nat → UInt8} {rest : List (Nat → UInt8)}
    (h : s.net.requests j = req :: rest) (hask : Asks d w s.mileage.vel j req) :
    ∃ msg, ((s.motor j).drive j).answer req = some msg ∧ (s.answerStep j).Carries d w j msg := by
  obtain ⟨l, rfl⟩ := hask
  rw [answerStep_cons h]
  cases w with
  | targetSpeed =>
    obtain ⟨msg, hmsg, hdec⟩ := (s.motor j).answer_speed d j (s.mileage.vel j) l
    refine ⟨msg, hmsg, ?_, hdec⟩
    show (update s.motor j _ j).target = _
    rw [Function.update_self]
    exact ((s.motor j).handle_speed d j (s.mileage.vel j) l).1
  | acturalPos =>
    obtain ⟨msg, hmsg, hdec⟩ := (s.motor j).answer_pos d j (s.mileage.vel j) l
    refine ⟨msg, hmsg, (s.motor j).position, ?_, hdec⟩
    have hread := ((s.motor j).handle_pos d j (s.mileage.vel j) l).2
    show (if isRead (d.encode j .acturalPos (s.mileage.vel j) l).cmData = true then _ else s.answered) j = _
    rw [if_pos hread, Function.update_self]

theorem carries_other {w : Waited} {j l : Nat} {req : Nat → UInt8} {rest : List (Nat → UInt8)}
    (h : s.net.requests j = req :: rest) (hl : l ≠ j) (msg : CanMsg) (hc : s.Carries d w l msg) :
    (s.answerStep j).Carries d w l msg := by
  obtain ⟨hm, ha⟩ := answerStep_other h hl
  have hvel : (s.answerStep j).mileage = s.mileage := by rw [answerStep_cons h]; rfl
  cases w with
  | targetSpeed =>
    refine ⟨?_, hc.2⟩
    rw [hm, hvel]
    exact hc.1
  | acturalPos =>
    obtain ⟨q, hq, hdec⟩ := hc
    exact ⟨q, ha.trans hq, hdec⟩

theorem served_answer {w : Waited} {j l : Nat} {req : Nat → UInt8} {rest : List (Nat → UInt8)}
    (h : s.net.requests j = req :: rest) (hstray : l = j → StrayReq req) (hs : s.Served w l) :
    (s.answerStep j).Served w l := by
  have hsame : (s.answerStep j).motor l = s.motor l ∧ (s.answerStep j).answered l = s.answered l := by
    by_cases hl : l = j
    · obtain ⟨hm, ha⟩ := answerStep_stray h (hstray hl)
      exact ⟨congrFun hm l, congrFun ha l⟩
    · exact answerStep_other h hl
  have htask : (s.answerStep j).task = s.task := by rw [answerStep_cons h]
  cases w with
  | targetSpeed =>
    show ((s.answerStep j).motor l).target = toInt32 ((s.answerStep j).task.devices.mileage.vel l)
    rw [hsame.1, htask]
    exact hs
  | acturalPos =>
    obtain ⟨q, hq, hv⟩ := hs
    refine ⟨q, hsame.2.trans hq, ?_⟩
    rw [htask]
    exact hv

theorem phaseAt_answer {j : Nat} (hj : j < 2) {pc : Pc} (h : s.PhaseAt d pc) : (s.answerStep j).PhaseAt d pc := by
  cases hreq : s.net.requests j with
  | nil =>
    have hsame : s.answerStep j = s := by
      unfold answerStep
      rw [hreq]
    rw [hsame]
    exact h
  | cons req rest =>
    have hsrc : ∀ msg ∈ ((s.motor j).drive j).answer req, sender msg = j := fun msg hmsg =>
      sender_of_chId hj (answer_chId hmsg)
    have hstray : StrayReq req → ∀ msg ∈ ((s.motor j).drive j).answer req, Stray d msg := by
      rintro rfl msg hmsg
      exact (s.motor j).answer_init d j hmsg
    have hnet : (s.answerStep j).net = s.net.reply j (((s.motor j).drive j).answer req) := by rw [answerStep_cons hreq]
    have hvel : (s.answerStep j).mileage = s.mileage := by rw [answerStep_cons hreq]; rfl
    have hround : ∀ w i, s.Round d w i → (s.answerStep j).Round d w i := by
      intro w i hr
      unfold Round
      rw [hnet, hvel]
      exact hr.reply hsrc hreq hstray (answerStep_asked hreq) (fun l hl => carries_other hreq hl)
        fun l hl => served_answer hreq hl
    have hsilent : s.Silent d → (s.answerStep j).Silent d := by
      intro hs l hl
      rw [hnet]
      exact (hs l hl).reply hsrc hreq hstray
    cases pc with
    | waitRet ct i =>
      obtain ⟨w, hw, hi, hr⟩ := h
      exact ⟨w, hw, hi, hround w i hr⟩
    | reading ct i =>
      obtain ⟨w, hw, hi, hr⟩ := h
      exact ⟨w, hw, hi, hround w i hr⟩
    | report =>
      refine ⟨hsilent h.1, fun l hl => served_answer hreq ?_ (h.2 l hl)⟩
      intro heq
      subst heq
      exact (h.1 l hl).requests req (by rw [hreq]; exact List.mem_cons_self)
    | _ => exact hsilent h

/-! ## A read -/

/-- What a frame read leaves of the chassis task. -/
structure Filed (t t' : Task ℚ) (ct : MotorDriverCmdType) (i : Nat) (msg : CanMsg) (r : Decoded) : Prop where
  pc : t'.pc = if r.ct = ct then .waitRet ct (i + 1) else .reading ct i
  retVal : t'.chassis.retVal = update t.chassis.retVal (sender msg) r.val
  mileage : t'.devices.mileage = t.devices.mileage
  fault : t'.fault = false

theorem filed_step {t : Task ℚ} {ct : MotorDriverCmdType} {i : Nat} (hd : t.chassis.driverProtocol = some d)
    (hf : t.fault = false) (hpc : t.pc = .reading ct i) (msg : CanMsg) :
    Filed t (t.step (.read (.frame msg))) ct i msg (d.decode (t.chassis.retVal (sender msg)) msg) := by
  have hstep : t.step (.read (.frame msg)) = t.readStep ct i (.frame msg) := by
    unfold Task.step
    rw [if_neg (by rw [hf]; exact Bool.false_ne_true), hpc]
  rw [hstep]
  simp only [Task.readStep, hd]
  refine ⟨?_, rfl, rfl, hf⟩
  show (if decide ((d.decode (t.chassis.retVal (sender msg)) msg).ct = ct) = true then _ else _) = _
  simp only [decide_eq_true_eq]

theorem readStep_cons {msg : CanMsg} {rest : List CanMsg} (hin : s.net.inbox = msg :: rest) (hf : s.task.fault = false)
    (hr : isReading s.task.pc = true) :
    s.readStep = { s with task := s.task.step (.read (.frame msg)), net := s.net.take } := by
  unfold readStep
  rw [hin]
  exact if_pos ⟨hf, hr⟩

/-- A read that takes a frame, or nothing. -/
theorem readStep_cases (s : Bus) :
    s.readStep = s ∨ ∃ msg rest ct i, s.net.inbox = msg :: rest ∧ s.task.fault = false ∧ s.task.pc = .reading ct i ∧
      s.readStep = { s with task := s.task.step (.read (.frame msg)), net := s.net.take } := by
  cases hin : s.net.inbox with
  | nil =>
    refine Or.inl ?_
    unfold readStep
    rw [hin]
  | cons msg rest =>
    by_cases hc : s.task.fault = false ∧ isReading s.task.pc = true
    · obtain ⟨hf, hr⟩ := hc
      have hread := readStep_cons hin hf hr
      cases hpc : s.task.pc with
      | reading ct i => exact Or.inr ⟨msg, rest, ct, i, rfl, hf, rfl, hread⟩
      | _ =>
        rw [hpc] at hr
        cases hr
    · refine Or.inl ?_
      unfold readStep
      rw [hin]
      exact if_neg hc

/-- A stray leaves the wait where it is, and the reply of a drive is one more. -/
theorem round_read {w : Waited} {i : Nat} (hd : s.task.chassis.driverProtocol = some d) (hf : s.task.fault = false)
    (hpc : s.task.pc = .reading w.ct i) (h : s.Round d w i) {msg : CanMsg} {rest : List CanMsg}
    (hin : s.net.inbox = msg :: rest) :
    s.readStep.task.pc = .reading w.ct i ∧ s.readStep.Round d w i ∨
      s.readStep.task.pc = .waitRet w.ct (i + 1) ∧ s.readStep.Round d w (i + 1) := by
  have hfiled := filed_step hd hf hpc msg
  rw [readStep_cons hin hf (by rw [hpc]; rfl)]
  dsimp only
  generalize s.task.step (.read (.frame msg)) = t' at hfiled
  have hmileage : ({ s with task := t', net := s.net.take } : Bus).mileage = s.mileage := hfiled.mileage
  have hcarries : ({ s with task := t', net := s.net.take } : Bus).Carries d = s.Carries d := by
    funext w j msg
    cases w with
    | targetSpeed => simp only [Carries, hmileage]
    | acturalPos => rfl
  unfold Round
  rw [hcarries, hmileage]
  rcases h.take hin (sender_lt msg) with ⟨hstray, hw⟩ | ⟨hgood, hw⟩
  · rw [hstray] at hfiled
    have hretVal : t'.chassis.retVal = s.task.chassis.retVal := hfiled.retVal.trans (Function.update_eq_self _ _)
    have hserved : ({ s with task := t', net := s.net.take } : Bus).Served w = s.Served w := by
      funext j
      cases w with
      | targetSpeed => simp only [Served, hmileage]
      | acturalPos => simp only [Served, hretVal]
    refine Or.inl ⟨hfiled.pc.trans (if_neg (Ne.symm w.ct_ne_undefined)), ?_⟩
    rw [hserved]
    exact hw
  · cases w with
    | targetSpeed =>
      obtain ⟨htarget, hdec⟩ := hgood
      rw [hdec] at hfiled
      refine Or.inr ⟨hfiled.pc.trans (if_pos rfl), hw _ ?_ fun l _ hl => ?_⟩
      · show _ = toInt32 (({ s with task := t', net := s.net.take } : Bus).mileage.vel _)
        rw [hmileage]
        exact htarget
      · show _ = toInt32 (({ s with task := t', net := s.net.take } : Bus).mileage.vel l)
        rw [hmileage]
        exact hl
    | acturalPos =>
      obtain ⟨q, hq, hdec⟩ := hgood
      rw [hdec] at hfiled
      refine Or.inr ⟨hfiled.pc.trans (if_pos rfl), hw _ ⟨q, hq, ?_⟩ fun l hne hl => ?_⟩
      · show t'.chassis.retVal _ = _
        rw [hfiled.retVal, Function.update_self]
      · obtain ⟨q, hq, hv⟩ := hl
        refine ⟨q, hq, ?_⟩
        show t'.chassis.retVal l = _
        rw [hfiled.retVal, Function.update_of_ne hne]
        exact hv

theorem busInv_read (h : s.BusInv d) (hw : ¬ StartUp.Before s.task.pc → Wired d s.task) : s.readStep.BusInv d := by
  rcases readStep_cases s with heq | ⟨msg, rest, ct, i, hin, hf, hpc, heq⟩
  · rw [heq]
    exact h
  · have hbefore : ¬ StartUp.Before s.task.pc := by
      simp [StartUp.Before, hpc]
    have hphase := h.phase
    rw [hpc] at hphase
    obtain ⟨w, rfl, hi, hround⟩ := hphase
    have hnext := round_read (hw hbefore).driver hf hpc hround hin
    have hfiled := filed_step (hw hbefore).driver hf hpc msg
    rw [heq] at hnext ⊢
    have hnone : s.calculated = none := h.stored.of_pc (by simp [hpc])
    refine ⟨?_, h.two, Or.inr (h.opened.resolve_left hbefore), Or.inr hfiled.fault, stored_of_none hnone⟩
    rcases hnext with ⟨hpc', hround'⟩ | ⟨hpc', hround'⟩
    · rw [hpc']
      exact ⟨w, rfl, hi, hround'⟩
    · rw [hpc']
      exact ⟨w, rfl, hi, hround'⟩

/-! ## The others on the board -/

theorem beside_retVal {e : Ev ℚ} (h : besideBus e = true) (t : Task ℚ) : (t.step e).chassis.retVal = t.chassis.retVal := by
  unfold Task.step
  split
  · rfl
  cases e with
  | task => cases h
  | store x y w => simp only [Task.storeStep]; split <;> rfl
  | setFlag => simp only [Task.setFlagStep]; split <;> rfl
  | post => simp only [Task.postStep]; split <;> rfl
  | demand pbMsg =>
    obtain ⟨p, d, n, hc⟩ := (Task.onlyConfig_demandStep t pbMsg).chassis
    show (t.demandStep pbMsg).chassis.retVal = _
    rw [hc]
  | param pbMsg =>
    obtain ⟨p, d, n, hc⟩ := (Task.onlyConfig_paramStep t pbMsg).chassis
    show (t.paramStep pbMsg).chassis.retVal = _
    rw [hc]
  | tick =>
    simp only [Task.tickStep]
    split
    · split <;> rfl
    · rfl
  | opened ok => dsimp only; split <;> rfl
  | read r =>
    dsimp only
    split
    · cases r with
      | frame msg => cases h
      | err status hs => simp only [Task.readStep]; split <;> rfl
    · rfl

/-- Beside the chassis task only the two configuration messages touch the parameters. -/
theorem beside_mileage {e : Ev ℚ} (h : besideBus e = true) (t : Task ℚ) :
    (t.step e).devices.mileage = t.devices.mileage ∨
      (∃ ct, (t.step e).devices.mileage = t.devices.mileage.setChassisType ct) ∨
        ∃ pbMsg r devices, e = .param pbMsg ∧ initializeParam t.devices pbMsg = some (r, devices) ∧
          (t.step e).devices.mileage = devices.mileage := by
  unfold Task.step
  split
  · exact Or.inl rfl
  cases e with
  | task => cases h
  | store x y w =>
    refine Or.inl ?_
    simp only [Task.storeStep]
    split
    · rfl
    · rfl
  | setFlag =>
    refine Or.inl ?_
    simp only [Task.setFlagStep]
    split
    · rfl
    · rfl
  | post =>
    refine Or.inl ?_
    simp only [Task.postStep]
    split
    · rfl
    · rfl
  | demand pbMsg =>
    simp only [Task.demandStep]
    split
    · cases hacts : acts pbMsg with
      | none =>
        refine Or.inl ?_
        dsimp only
        rw [configChassisTypeFunc_idle t.devices pbMsg hacts]
      | some m =>
        refine Or.inr (Or.inl ⟨m.chassisType, ?_⟩)
        dsimp only
        rw [configChassisTypeFunc_acts t.devices pbMsg m hacts]
    · exact Or.inl rfl
  | param pbMsg =>
    simp only [Task.paramStep]
    split
    · split
      case h_1 r devices hr => exact Or.inr (Or.inr ⟨pbMsg, r, devices, rfl, hr, rfl⟩)
      case h_2 => exact Or.inl rfl
    · exact Or.inl rfl
  | tick =>
    refine Or.inl ?_
    simp only [Task.tickStep]
    split
    · split
      · rfl
      · rfl
    · rfl
  | opened ok =>
    refine Or.inl ?_
    dsimp only
    split
    · rfl
    · rfl
  | read r =>
    refine Or.inl ?_
    dsimp only
    split
    · cases r with
      | frame msg => cases h
      | err status hs =>
        simp only [Task.readStep]
        split
        · rfl
        · rfl
    · rfl

/-- Nobody beside the task computes velocities or stores positions. -/
theorem beside_vel_pos {e : Ev ℚ} (h : besideBus e = true) (t : Task ℚ) :
    (t.step e).devices.mileage.vel = t.devices.mileage.vel ∧ (t.step e).devices.mileage.pos = t.devices.mileage.pos := by
  rcases beside_mileage h t with heq | ⟨ct, heq⟩ | ⟨pbMsg, r, devices, -, hr, heq⟩
  · rw [heq]
    exact ⟨rfl, rfl⟩
  · rw [heq]
    exact ⟨rfl, rfl⟩
  · rw [heq]
    exact (initializeParam_reset hr).2.2

/-- Where the others can move the task: out of `sem_wait`, and past `open`. -/
theorem beside_pc {e : Ev ℚ} (h : besideBus e = true) {t : Task ℚ}
    (hr : isReading t.pc = true → ∀ status hs, e = .read (.err status hs) →
      status = Task.EINTR ∧ t.chassis.bNewSpeedCmd = true) :
    (t.step e).pc = t.pc ∨ t.pc = .semWait ∧ (t.step e).pc = .eintr ∨
      t.pc = .openCan ∧ (t.step e).fault = false ∧
        (opens t e = true ∧ (t.step e).pc = .initMsg ∨ e = .opened false ∧ (t.step e).pc = .timerSet) := by
  unfold Task.step
  split
  · exact Or.inl rfl
  case isFalse hf =>
  cases e with
  | task => cases h
  | store x y w => refine Or.inl ?_; simp only [Task.storeStep]; split <;> rfl
  | setFlag => refine Or.inl ?_; simp only [Task.setFlagStep]; split <;> rfl
  | post => refine Or.inl ?_; simp only [Task.postStep]; split <;> rfl
  | demand pbMsg => exact Or.inl (Task.onlyConfig_demandStep t pbMsg).pc
  | param pbMsg => exact Or.inl (Task.onlyConfig_paramStep t pbMsg).pc
  | tick =>
    simp only [Task.tickStep]
    split
    · split
      case isTrue hw => exact Or.inr (Or.inl ⟨hw.1, rfl⟩)
      case isFalse => exact Or.inl rfl
    · exact Or.inl rfl
  | opened ok =>
    dsimp only
    split
    case isTrue hpc =>
      refine Or.inr (Or.inr ⟨hpc, Bool.eq_false_of_not_eq_true hf, ?_⟩)
      cases ok with
      | true => exact Or.inl ⟨decide_eq_true ⟨Bool.eq_false_of_not_eq_true hf, hpc, rfl⟩, rfl⟩
      | false => exact Or.inr ⟨rfl, rfl⟩
    case isFalse => exact Or.inl rfl
  | read r =>
    dsimp only
    split
    case h_1 ct i hpc =>
      cases r with
      | frame msg => cases h
      | err status hs =>
        refine Or.inl ?_
        simp only [Task.readStep]
        rw [if_pos (hr (by rw [hpc]; rfl) status hs rfl)]
    case h_2 => exact Or.inl rfl

theorem not_fault {d : CDriverCanProtocol} {t : Task ℚ} (hd : t.chassis.driverProtocol = some d) (hf : t.fault = false)
    (e : Ev ℚ) : (t.step e).fault = false := by
  refine Bool.eq_false_of_not_eq_true fun h => ?_
  have hnone := ((Task.fault_iff t e hf).mp h).2
  rw [hd] at hnone
  cases hnone

theorem silent_of_before (h : s.BusInv d) (hb : StartUp.Before s.task.pc) : s.Silent d := by
  have hphase := h.phase
  rcases hb with hb | hb | hb
  all_goals
    rw [hb] at hphase
    exact hphase

theorem before_away {pc : Pc} (h : StartUp.Before pc) : awayPc pc = true := by
  rcases h with h | h | h
  all_goals
    rw [h]
    rfl

theorem busInv_beside (h : s.BusInv d) {e : Ev ℚ} (he : besideBus e = true) (hst : Steady d s (.beside e he)) :
    BusInv d { s with task := s.task.step e, can1Open := s.can1Open || opens s.task e } := by
  have hpc := beside_pc he fun hr status hs heq => hst.reads hr status hs (by rw [← heq]; exact he) (by simp only [heq])
  have hsilent : s.Silent d → Silent d { s with task := s.task.step e, can1Open := s.can1Open || opens s.task e } := id
  have hstored : Stored { s with task := s.task.step e, can1Open := s.can1Open || opens s.task e } := by
    refine h.stored.of_same rfl (fun hr => ?_) rfl (beside_vel_pos he s.task).2
    rcases hpc with heq | ⟨hw, -⟩ | ⟨ho, -⟩
    · exact heq.trans hr
    · rw [hw] at hr
      cases hr
    · rw [ho] at hr
      cases hr
  by_cases hb : StartUp.Before s.task.pc
  · have haway : awayPc (s.task.step e).pc = true := by
      rcases hpc with heq | ⟨-, heq⟩ | ⟨-, -, ⟨-, heq⟩ | ⟨-, heq⟩⟩
      · rw [heq]
        exact before_away hb
      all_goals
        rw [heq]
        rfl
    refine ⟨(phaseAt_away haway).mpr (hsilent (silent_of_before h hb)), h.two, ?_, ?_, hstored⟩
    · rcases hpc with heq | ⟨hw, -⟩ | ⟨ho, -, ⟨hopen, -⟩ | ⟨hfalse, -⟩⟩
      · exact Or.inl (by rw [heq]; exact hb)
      · simp [StartUp.Before, hw] at hb
      · refine Or.inr ?_
        dsimp only
        rw [hopen, Bool.or_true]
      · exact absurd (by simp only [hfalse]) (hst.opens ho (by rw [← hfalse]; exact he))
    · rcases hpc with heq | ⟨hw, -⟩ | ⟨-, hf, -⟩
      · exact Or.inl (by rw [heq]; exact hb)
      · simp [StartUp.Before, hw] at hb
      · exact Or.inr hf
  · have hwired := hst.wired hb
    have hsame : SameRound s { s with task := s.task.step e, can1Open := s.can1Open || opens s.task e } :=
      ⟨rfl, rfl, fun _ => rfl, (beside_vel_pos he s.task).1, beside_retVal he s.task⟩
    refine ⟨?_, h.two, Or.inr ?_, Or.inr (not_fault hwired.driver (h.fault.resolve_left hb) e), hstored⟩
    · rw [hsame.phaseAt]
      rcases hpc with heq | ⟨hw, heq⟩ | ⟨ho, -⟩
      · dsimp only
        rw [heq]
        exact h.phase
      · have hphase := h.phase
        rw [hw] at hphase
        dsimp only
        rw [heq]
        exact hphase
      · exact absurd (Or.inr (Or.inr ho)) hb
    · dsimp only
      rw [h.opened.resolve_left hb, Bool.true_or]

/-! ## Frames on their way out -/

theorem getInitFrame_data {d : CDriverCanProtocol} {n : Nat} {count : InitCount} {f : CanTxMsg}
    (h : d.getInitFrame n count = some f) : StrayReq f.cmData := by
  unfold CDriverCanProtocol.getInitFrame at h
  dsimp only at h
  split at h
  · cases h
  · split at h
    · obtain rfl := Option.some.inj h
      rfl
    · cases h

theorem quiet_deliver {n : Net (Nat → UInt8) CanMsg} {f : CanTxMsg} (hf : StrayReq f.cmData) {j : Nat}
    (h : Quiet sender StrayReq (Stray d) n j) : Quiet sender StrayReq (Stray d) (deliver n f) j := by
  unfold deliver
  split
  · exact h.ask_stray hf
  · exact h

theorem deliver_two {n : Net (Nat → UInt8) CanMsg} (f : CanTxMsg) (h : ∀ j, 2 ≤ j → n.requests j = []) :
    ∀ j, 2 ≤ j → (deliver n f).requests j = [] := by
  intro j hj
  unfold deliver
  split
  case h_1 i hi =>
    obtain ⟨id, -, hid⟩ := Option.bind_eq_some_iff.mp hi
    rw [n.ask_other (by have := listener_lt hid; omega)]
    exact h j hj
  case h_2 => exact h j hj

theorem deliverAll_two (frames : List CanTxMsg) {n : Net (Nat → UInt8) CanMsg} (h : ∀ j, 2 ≤ j → n.requests j = []) :
    ∀ j, 2 ≤ j → (frames.foldl deliver n).requests j = [] := by
  induction frames generalizing n with
  | nil => exact h
  | cons f frames ih => exact ih (deliver_two f h)

/-- The frames of a round: drive `j` gets the one for motor `j`. -/
theorem deliver_encodeAll {t : Task ℚ} (hw : Wired d t) (ct : MotorDriverCmdType) (vel : Nat → Int) (l : Found)
    (n : Net (Nat → UInt8) CanMsg) :
    (encodeAll t ct vel l).foldl deliver n =
      (n.ask 0 (d.encode 0 ct (vel 0) (l.txMessage 0)).cmData).ask 1 (d.encode 1 ct (vel 1) (l.txMessage 1)).cmData := by
  have hone : ∀ (m : Net (Nat → UInt8) CanMsg) (j : Nat), j < 2 →
      deliver m (d.encode j ct (vel j) (l.txMessage j)) = m.ask j (d.encode j ct (vel j) (l.txMessage j)).cmData := by
    intro m j hj
    have hid : (d.encode j ct (vel j) (l.txMessage j)).chId.bind listener = some j := by
      show (d.motorRxId j).bind listener = some j
      rw [hw.motorRxId j hj]
      exact listener_add hj
    unfold deliver
    rw [hid]
  unfold encodeAll
  rw [hw.driver, hw.numOfWheel]
  show deliver (deliver n _) _ = _
  rw [hone _ 0 (by decide), hone _ 1 (by decide)]

theorem due_deliverAll {t : Task ℚ} (hw : Wired d t) (w : Waited) (vel : Nat → Int) (l : Found)
    {n : Net (Nat → UInt8) CanMsg} {B : Nat → CanMsg → Prop}
    (h : ∀ j, j < 2 → Quiet sender StrayReq (Stray d) n j) :
    ∀ j, j < 2 → Due sender StrayReq (Stray d) (Asks d w vel) B ((encodeAll t w.ct vel l).foldl deliver n) j := by
  intro j hj
  rw [deliver_encodeAll hw]
  obtain rfl | rfl : j = 0 ∨ j = 1 := by omega
  · exact ((h 0 hj).ask ⟨_, rfl⟩).ask_other (by decide) _
  · exact ((h 1 hj).ask_other (by decide) _).ask ⟨_, rfl⟩

/-! ## The task's own steps -/

theorem taskStep_of_pc {ar : Arith} {l : Found} {pc : Pc} (hf : s.task.fault = false) (hpc : s.task.pc = pc) :
    s.taskStep ar l = s.taskStepAt ar l pc := by
  unfold taskStep
  rw [if_neg (by rw [hf]; exact Bool.false_ne_true), hpc]

theorem step_task {t : Task ℚ} {pc : Pc} (hf : t.fault = false) (hpc : t.pc = pc) : t.step .task = t.taskStep pc := by
  unfold Task.step
  rw [if_neg (by rw [hf]; exact Bool.false_ne_true), hpc]

theorem encodes_wired {t next : Task ℚ} (hd : t.chassis.driverProtocol = some d) : t.encodes next = next := by
  unfold Task.encodes
  rw [hd]
  exact if_neg fun h => nomatch h.1

/-- Frames on their way out leave the board and the drives as they are. -/
theorem write_frame (s : Bus) (frames : List CanTxMsg) :
    (s.write frames).task = s.task ∧ (s.write frames).motor = s.motor ∧ (s.write frames).trail = s.trail := by
  unfold write
  split
  · exact ⟨rfl, rfl, rfl⟩
  · exact ⟨rfl, rfl, rfl⟩

theorem write_calculated (s : Bus) (frames : List CanTxMsg) : (s.write frames).calculated = s.calculated := by
  unfold write
  split
  · rfl
  · rfl

/-- A frame of `doInit`, or the end of it. -/
theorem busInv_doInit (h : s.BusInv d) (hf : s.task.fault = false) (hpc : s.task.pc = .initMsg) (hw : Wired d s.task) :
    s.doInit.BusInv d := by
  have hbefore : ¬ StartUp.Before s.task.pc := StartUp.not_before hpc
  have hphase := h.phase
  rw [hpc] at hphase
  have hsilent : s.Silent d := hphase
  have hopen := h.opened.resolve_left hbefore
  have hstep : s.task.step .task = _ := step_task hf hpc
  simp only [Task.taskStep, hw.driver] at hstep
  have hnet : s.doInit.net =
      ((d.getInitFrame s.task.numOfWheel s.task.initCount).toList.foldl deliver s.net) := by
    unfold doInit write
    rw [if_pos hopen, hw.driver]
    rfl
  have htask : s.doInit.task = s.task.step .task := by
    unfold doInit write
    rw [if_pos hopen]
  have hopen' : s.doInit.can1Open = true := by
    unfold doInit write
    rw [if_pos hopen]
    exact hopen
  have haway : awayPc s.doInit.task.pc = true := by
    rw [htask, hstep]
    dsimp only
    split
    · rfl
    · rfl
  have hstored : s.doInit.Stored :=
    stored_of_none ((write_calculated _ _).trans (h.stored.of_pc (by simp [hpc])))
  refine ⟨(phaseAt_away haway).mpr fun j hj => ?_, ?_, Or.inr hopen', Or.inr ?_, hstored⟩
  · rw [hnet]
    cases hframe : d.getInitFrame s.task.numOfWheel s.task.initCount with
    | none => exact hsilent j hj
    | some f => exact quiet_deliver (getInitFrame_data hframe) (hsilent j hj)
  · rw [hnet]
    exact deliverAll_two _ h.two
  · rw [htask, hstep]
    exact hf

/-- The start of a round: every drive is sent its request. -/
theorem busInv_write {t' : Task ℚ} {answered : Nat → Option Int} {w : Waited} {vel : Nat → Int} {l : Found}
    (h : s.BusInv d) (hw : Wired d s.task) (hbefore : ¬ StartUp.Before s.task.pc) (hnone : s.calculated = none)
    (hsilent : s.Silent d) (hpc : t'.pc = .waitRet w.ct 0) (hf : t'.fault = false) (hvel : t'.devices.mileage.vel = vel) :
    ({ s with task := t', answered := answered }.write (encodeAll s.task w.ct vel l)).BusInv d := by
  have hopen : s.can1Open = true := h.opened.resolve_left hbefore
  have hwrite : { s with task := t', answered := answered }.write (encodeAll s.task w.ct vel l) =
      { s with task := t', answered := answered, net := (encodeAll s.task w.ct vel l).foldl deliver s.net } :=
    if_pos hopen
  rw [hwrite]
  refine ⟨?_, deliverAll_two _ h.two, Or.inr hopen, Or.inr hf, stored_of_none hnone⟩
  dsimp only
  rw [hpc]
  refine ⟨w, rfl, by decide, Waiting.of_due ?_⟩
  have hdue := due_deliverAll hw w vel l (B := Carries d
    { s with task := t', answered := answered, net := (encodeAll s.task w.ct vel l).foldl deliver s.net } w) hsilent
  intro j hj
  rw [show ({ s with
      task := t', answered := answered, net := (encodeAll s.task w.ct vel l).foldl deliver s.net } : Bus).mileage.vel =
      vel from hvel]
  exact hdue j hj

theorem busInv_sendSpeedCmd (h : s.BusInv d) (hf : s.task.fault = false) (hpc : s.task.pc = .sendSpeed)
    (hw : Wired d s.task) (l : Found) : (s.sendSpeedCmd l).BusInv d := by
  have hbefore : ¬ StartUp.Before s.task.pc := by
    simp [StartUp.Before, hpc]
  have hphase := h.phase
  rw [hpc] at hphase
  have hstep : s.task.step .task = _ := step_task hf hpc
  simp only [Task.taskStep, encodes_wired hw.driver] at hstep
  unfold sendSpeedCmd
  rw [hstep]
  exact busInv_write (w := .targetSpeed) h hw hbefore (h.stored.of_pc (by simp [hpc])) hphase rfl hf rfl

theorem busInv_sendQueryCmd (h : s.BusInv d) (hf : s.task.fault = false) (hpc : s.task.pc = .sendQuery)
    (hw : Wired d s.task) (l : Found) : (s.sendQueryCmd l).BusInv d := by
  have hbefore : ¬ StartUp.Before s.task.pc := by
    simp [StartUp.Before, hpc]
  have hphase := h.phase
  rw [hpc] at hphase
  have hstep : s.task.step .task = _ := step_task hf hpc
  simp only [Task.taskStep, encodes_wired hw.driver] at hstep
  unfold sendQueryCmd
  rw [hstep]
  exact busInv_write (w := .acturalPos) h hw hbefore (h.stored.of_pc (by simp [hpc])) hphase rfl hf rfl

/-- `report` leaves the bus alone. Its first step takes the positions in, its second makes
    the message. -/
structure Reported (ar : Arith) (s s' : Bus) (l : Found) : Prop where
  net : s'.net = s.net
  can1Open : s'.can1Open = s.can1Open
  motor : s'.motor = s.motor
  answered : s'.answered = s.answered
  fault : s'.task.fault = false
  chassis : s'.task.chassis = s.task.chassis
  phases : s.calculated = none ∧ s'.calculated ≠ none ∧ s'.task.pc = .report ∧
      s'.mileage = CMileage.odo ar s.mileage s.task.chassis.retVal l.planarPos ∨
    s.calculated ≠ none ∧ s'.calculated = none ∧ s'.task.pc = .semWait ∧ s'.mileage = s.mileage

theorem reported_report (ar : Arith) (hf : s.task.fault = false) (hpc : s.task.pc = .report) (l : Found) :
    Reported ar s (s.report ar l) l := by
  unfold report
  split
  case h_1 hnone =>
    exact ⟨rfl, rfl, rfl, rfl, hf, rfl, Or.inl ⟨hnone, Option.some_ne_none _, hpc, rfl⟩⟩
  case h_2 r hsome =>
    have hne : s.calculated ≠ none := by
      rw [hsome]
      exact Option.some_ne_none r
    have hstep : s.task.step .task = _ := step_task hf hpc
    simp only [Task.taskStep] at hstep
    unfold upload
    rw [hstep]
    dsimp only
    split
    · exact ⟨rfl, rfl, rfl, rfl, hf, rfl, Or.inr ⟨hne, rfl, rfl, rfl⟩⟩
    · exact ⟨rfl, rfl, rfl, rfl, hf, rfl, Or.inr ⟨hne, rfl, rfl, rfl⟩⟩

theorem odo_pos {ar : Arith} {m : CMileage} {pos : Nat → Int} {planarPos : PlanarPos} {j : Nat} (hj : j < m.numOfWheel) :
    (CMileage.odo ar m pos planarPos).pos j = pos j := by
  obtain ⟨_, _, _, _, _, _, _, _, h⟩ : ∃ _ _ _ _ _ _ _ _, CMileage.odo ar m pos planarPos = _ := CMileage.sample_writes
  rw [h, CMileage.readPos_eq]
  exact CMileage.copyWheels_lt pos m.pos hj

theorem busInv_report {ar : Arith} (h : s.BusInv d) (hf : s.task.fault = false) (hpc : s.task.pc = .report)
    (hw : Wired d s.task) (l : Found) : (s.report ar l).BusInv d := by
  have hr := reported_report ar hf hpc l
  have hbefore : ¬ StartUp.Before s.task.pc := by
    simp [StartUp.Before, hpc]
  have hphase := h.phase
  rw [hpc] at hphase
  obtain ⟨hsilent, hserved⟩ := hphase
  have hsilent' : (s.report ar l).Silent d := by
    unfold Silent
    rw [hr.net]
    exact hsilent
  have hopen : (s.report ar l).can1Open = true := hr.can1Open.trans (h.opened.resolve_left hbefore)
  have htwo : ∀ j, 2 ≤ j → (s.report ar l).net.requests j = [] := by
    rw [hr.net]
    exact h.two
  rcases hr.phases with ⟨-, -, hpc', hm⟩ | ⟨-, hnone, hpc', -⟩
  · refine ⟨?_, htwo, Or.inr hopen, Or.inr hr.fault, fun _ => ⟨hpc', fun j hj => ?_⟩⟩
    · rw [hpc']
      refine ⟨hsilent', fun j hj => ?_⟩
      obtain ⟨q, hq, hv⟩ := hserved j hj
      exact ⟨q, (congrFun hr.answered j).trans hq, (congrArg (fun c => CChassisDevice.retVal c j) hr.chassis).trans hv⟩
    · obtain ⟨q, hq, hv⟩ := hserved j hj
      refine ⟨q, (congrFun hr.answered j).trans hq, ?_⟩
      rw [hm, odo_pos (by rw [show s.mileage.numOfWheel = 2 from hw.numOfWheel]; exact hj)]
      exact hv
  · refine ⟨?_, htwo, Or.inr hopen, Or.inr hr.fault, stored_of_none hnone⟩
    rw [hpc']
    exact hsilent'

/-- The accesses at which the bus plays no part. -/
def plain : Pc → Bool
  | .initMsg | .sendSpeed | .sendQuery | .report => false
  | _ => true

structure SameData (t t' : Task ℚ) : Prop where
  retVal : t'.chassis.retVal = t.chassis.retVal
  mileage : t'.devices.mileage = t.devices.mileage
  fault : t'.fault = t.fault

theorem sameData_taskStep (t : Task ℚ) {pc : Pc} (h : plain pc = true) : SameData t (t.taskStep pc) := by
  cases pc with
  | initMsg => cases h
  | sendSpeed => cases h
  | sendQuery => cases h
  | report => cases h
  | waitStart => simp only [Task.taskStep]; split <;> exact ⟨rfl, rfl, rfl⟩
  | waitInited => simp only [Task.taskStep]; split <;> exact ⟨rfl, rfl, rfl⟩
  | semWait => simp only [Task.taskStep]; split <;> exact ⟨rfl, rfl, rfl⟩
  | _ => exact ⟨rfl, rfl, rfl⟩

/-- Outside a round the task stays outside of it. -/
theorem away_taskStep {t : Task ℚ} {pc : Pc} (h : plain pc = true) (ha : awayPc pc = true) (hpc : t.pc = pc) :
    awayPc (t.taskStep pc).pc = true := by
  cases pc with
  | initMsg => cases h
  | sendSpeed => cases h
  | sendQuery => cases h
  | report => cases h
  | waitRet ct i => cases ha
  | reading ct i => cases ha
  | openCan =>
    show awayPc t.pc = true
    rw [hpc]
    rfl
  | waitStart | waitInited | semWait =>
    simp only [Task.taskStep]
    split
    · rfl
    · rw [hpc]
      rfl
  | eintr | testNew | testOdo | testState =>
    simp only [Task.taskStep, Task.goto]
    split <;> rfl
  | timerSet | clearNew | clearOdo | clearState => rfl
  | ret =>
    simp only [Task.taskStep, Task.goto]
    split
    · rfl
    split <;> rfl

theorem before_taskStep {t : Task ℚ} {pc : Pc} (hb : StartUp.Before pc) (hpc : t.pc = pc) :
    StartUp.Before (t.taskStep pc).pc ∨ (t.taskStep pc).pc = .openCan := by
  rcases hb with rfl | rfl | rfl
  · simp only [Task.taskStep]
    split
    · exact Or.inl (Or.inr (Or.inl rfl))
    · exact Or.inl (Or.inl hpc)
  · simp only [Task.taskStep]
    split
    · exact Or.inr rfl
    · exact Or.inl (Or.inr (Or.inl hpc))
  · exact Or.inr hpc

theorem busInv_plain {pc : Pc} (h : s.BusInv d) (hf : s.task.fault = false) (hpc : s.task.pc = pc)
    (hp : plain pc = true) (hw : ¬ StartUp.Before pc → Wired d s.task) :
    BusInv d { s with task := s.task.step .task } := by
  have hstep := step_task hf hpc
  have hdata := sameData_taskStep s.task hp
  have hsame : SameRound s { s with task := s.task.step .task } := by
    rw [hstep]
    exact ⟨rfl, rfl, fun _ => rfl, congrArg CMileage.vel hdata.mileage, hdata.retVal⟩
  have hphase := h.phase
  have hopen := h.opened
  rw [hpc] at hphase hopen
  have hbefore : StartUp.Before pc → StartUp.Before (s.task.step .task).pc := by
    intro hb
    rw [hstep]
    rcases before_taskStep hb hpc with hb' | ho
    · exact hb'
    · exact Or.inr (Or.inr ho)
  have hnone : s.calculated = none := h.stored.of_pc fun hr => by
    rw [← hpc, hr] at hp
    cases hp
  refine ⟨(hsame.phaseAt _).mpr ?_, h.two, hopen.imp hbefore id, Or.inr ?_, stored_of_none hnone⟩
  · dsimp only
    rw [hstep]
    by_cases ha : awayPc pc = true
    · exact (phaseAt_away (away_taskStep hp ha hpc)).mpr ((phaseAt_away ha).mp hphase)
    · cases pc with
      | waitRet ct i =>
        obtain ⟨w, rfl, hi, hround⟩ := hphase
        have hwired := hw (by simp [StartUp.Before])
        simp only [Task.taskStep, Task.goto, hwired.numOfWheel]
        by_cases hlt : i < 2
        · rw [if_pos hlt]
          exact ⟨w, rfl, hlt, hround⟩
        · obtain rfl : i = 2 := by omega
          rw [if_neg hlt]
          have hall := Waiting.all hround
          cases w with
          | targetSpeed => exact fun j hj => (hall j hj).1
          | acturalPos => exact ⟨fun j hj => (hall j hj).1, fun j hj => (hall j hj).2⟩
      | reading ct i =>
        show s.PhaseAt d s.task.pc
        rw [hpc]
        exact hphase
      | report => cases hp
      | _ => exact absurd rfl ha
  · rw [hstep]
    exact hdata.fault.trans hf

theorem busInv_taskStep {ar : Arith} (h : s.BusInv d) (hw : ¬ StartUp.Before s.task.pc → Wired d s.task) (l : Found) :
    (s.taskStep ar l).BusInv d := by
  by_cases hf : s.task.fault = true
  · unfold taskStep
    rw [if_pos hf]
    exact h
  have hf := Bool.eq_false_of_not_eq_true hf
  generalize hpc : s.task.pc = pc at hw
  rw [taskStep_of_pc hf hpc]
  cases pc with
  | initMsg => exact busInv_doInit h hf hpc (hw (by simp [StartUp.Before]))
  | sendSpeed => exact busInv_sendSpeedCmd h hf hpc (hw (by simp [StartUp.Before])) l
  | sendQuery => exact busInv_sendQueryCmd h hf hpc (hw (by simp [StartUp.Before])) l
  | report => exact busInv_report h hf hpc (hw (by simp [StartUp.Before])) l
  | _ => exact busInv_plain h hf hpc rfl hw

theorem busInv_step {ar : Arith} (s : Bus) (e : BusEv) (h : s.BusInv d) (hst : Steady d s e) : (s.step ar e).BusInv d := by
  cases e with
  | beside e he => exact busInv_beside h he hst
  | task l => exact busInv_taskStep h hst.wired l
  | read => exact busInv_read h hst.wired
  | turn j δ =>
    exact ⟨((sameRound_turn s j δ).phaseAt _).mpr h.phase, h.two, h.opened, h.fault, h.stored.of_same rfl id rfl rfl⟩
  | answer j =>
    show (s.answerStep j).BusInv d
    cases hreq : s.net.requests j with
    | nil =>
      have hsame : s.answerStep j = s := by
        unfold answerStep
        rw [hreq]
      rw [hsame]
      exact h
    | cons req rest =>
      have hj := h.lt_two hreq
      have htask : (s.answerStep j).task = s.task := by rw [answerStep_cons hreq]
      have hcalc : (s.answerStep j).calculated = s.calculated := by rw [answerStep_cons hreq]
      refine ⟨?_, fun i hi => ?_, ?_, ?_, fun hne => ?_⟩
      · rw [htask]
        exact phaseAt_answer hj h.phase
      · rw [answerStep_cons hreq]
        exact (s.net.reply_other (by omega) _).trans (h.two i hi)
      · rw [answerStep_cons hreq]
        exact h.opened
      · rw [htask]
        exact h.fault
      · have hans := h.answerStep_kept (hcalc ▸ hne) hreq
        refine h.stored.of_same hcalc (fun hr => ?_) hans ?_ hne
        · rw [htask]
          exact hr
        · show (s.answerStep j).task.devices.mileage.pos = _
          rw [htask]
          rfl

theorem busInv_powerUp (protocol : Nat) (retVal : Nat → Int) (retTyp : Nat → MotorDriverCmdType) (encoderLines : Int)
    (motor : Nat → Motor) (timing : Reporter.Timing) :
    (powerUp protocol retVal retTyp encoderLines motor timing).BusInv d := by
  refine ⟨fun j _ => ⟨fun a ha => ?_, fun b hb => ?_⟩, fun _ _ => rfl, Or.inl (Or.inl rfl), Or.inl (Or.inl rfl),
    stored_of_none rfl⟩
  · cases ha
  · cases hb

section Calm

variable {ar : Arith}

/-! ## Runs in which the configuration stays -/

/-- No configuration message, and no failure of `open` or `read`. -/
def calm : BusEv → Bool
  | .beside e _ =>
    match e with
    | .demand _ | .param _ | .opened false | .read _ => false
    | _ => true
  | _ => true

theorem steady_of_calm {e : BusEv} (hw : Wired d s.task) (he : calm e = true) : Steady d s e := by
  refine ⟨fun _ => hw, fun _ h heq => ?_, fun _ status hs h heq => ?_⟩
  · rw [heq] at he
    cases he
  · rw [heq] at he
    cases he

theorem Wired.of_same {t t' : Task ℚ} (h : Wired d t) (hs : Task.SameConfig t t') : Wired d t' :=
  ⟨hs.driver.trans h.driver, hs.chassisType.trans h.chassisType, h.motorRxId⟩

theorem wired_write {frames : List CanTxMsg} (h : Wired d s.task) : Wired d (s.write frames).task := by
  rw [(write_frame s frames).1]
  exact h

theorem wired_task (h : Wired d s.task) (l : Found) : Wired d (s.taskStep ar l).task := by
  have hsame : Wired d (s.task.step .task) := h.of_same (Task.sameConfig_step s.task .task trivial)
  by_cases hf : s.task.fault = true
  · unfold taskStep
    rw [if_pos hf]
    exact h
  have hf := Bool.eq_false_of_not_eq_true hf
  generalize hpc : s.task.pc = pc
  rw [taskStep_of_pc hf hpc]
  cases pc with
  | initMsg => exact wired_write hsame
  | sendSpeed =>
    exact wired_write ⟨hsame.driver, h.chassisType, h.motorRxId⟩
  | sendQuery => exact wired_write hsame
  | report =>
    have hr := reported_report ar hf hpc l
    refine ⟨(congrArg CChassisDevice.driverProtocol hr.chassis).trans h.driver, ?_, h.motorRxId⟩
    rcases hr.phases with ⟨-, -, -, hm⟩ | ⟨-, -, -, hm⟩
    · exact ((congrArg CMileage.chassisType hm).trans (CMileage.odo_frame _ _).2.1).trans h.chassisType
    · exact (congrArg CMileage.chassisType hm).trans h.chassisType
  | _ => exact hsame

theorem wired_step {e : BusEv} (h : Wired d s.task) (he : calm e = true) : Wired d (s.step ar e).task := by
  cases e with
  | beside e hb =>
    refine h.of_same (Task.sameConfig_step s.task e ?_)
    cases e with
    | demand pbMsg => cases he
    | param pbMsg => cases he
    | _ => trivial
  | task l => exact wired_task h l
  | read =>
    show Wired d s.readStep.task
    rcases readStep_cases s with heq | ⟨msg, rest, ct, i, -, -, -, heq⟩
    · rw [heq]
      exact h
    · rw [heq]
      exact h.of_same (Task.sameConfig_step s.task (.read (.frame msg)) trivial)
  | turn j δ => exact h
  | answer j =>
    show Wired d (s.answerStep j).task
    unfold answerStep
    split
    · exact h
    · exact h

/-- From a wired state on, a run with no configuration message and no failure is steady. -/
theorem steady_run (es : List BusEv) (s : Bus) (h : Wired d s.task) (hes : ∀ e ∈ es, calm e = true) :
    Along (step ar) (Steady d) s es := by
  induction es generalizing s with
  | nil => trivial
  | cons e es ih =>
    have he := hes e List.mem_cons_self
    exact ⟨steady_of_calm h he, ih _ (wired_step h he) fun e' h' => hes e' (List.mem_cons_of_mem e h')⟩

end Calm

/-! ## What a round comes to -/

/-- After a query the report has where each drive was when it answered this query; after a
    speed command each drive has the velocity computed for its motor; and in between
    nothing is on the bus but what is left of the initialisation. -/
def Closed (ar : Arith) (d : CDriverCanProtocol) (s : Bus) : BusEv → Prop
  | .task l =>
    s.task.fault = false →
      (s.task.pc = .report → ∀ j, j < 2 →
        ∃ q, s.answered j = some q ∧ (s.step ar (.task l)).mileage.pos j = toInt32 q) ∧
      (s.task.pc = .waitRet .targetSpeed 2 → ∀ j, j < 2 → (s.motor j).target = toInt32 (s.mileage.vel j)) ∧
      (s.task.pc = .semWait → s.Silent d)
  | _ => True

theorem closed_of_inv {ar : Arith} (s : Bus) (e : BusEv) (h : s.BusInv d) (hst : Steady d s e) : Closed ar d s e := by
  cases e with
  | task l =>
    intro hf
    refine ⟨fun hpc j hj => ?_, fun hpc => ?_, fun hpc => ?_⟩
    · have hphase := h.phase
      rw [hpc] at hphase
      obtain ⟨q, hq, hv⟩ := hphase.2 j hj
      refine ⟨q, hq, ?_⟩
      have hwired := hst.wired (by simp [StartUp.Before, hpc])
      show (s.taskStep ar l).mileage.pos j = _
      rw [taskStep_of_pc hf hpc]
      show (s.report ar l).mileage.pos j = _
      rcases (reported_report ar hf hpc l).phases with ⟨-, -, -, hm⟩ | ⟨hne, -, -, hm⟩
      · rw [hm, odo_pos (by rw [show s.mileage.numOfWheel = 2 from hwired.numOfWheel]; exact hj)]
        exact hv
      · obtain ⟨q', hq', hv'⟩ := (h.stored hne).2 j hj
        rw [hq] at hq'
        rw [hm, Option.some.inj hq', hv']
    · have hphase := h.phase
      rw [hpc] at hphase
      obtain ⟨w, hw, -, hround⟩ := hphase
      rw [w.targetSpeed_of_ct hw] at hround
      exact fun j hj => (Waiting.all hround j hj).2
    · have hphase := h.phase
      rw [hpc] at hphase
      exact hphase
  | _ => trivial

theorem rounds_closed (ar : Arith) (d : CDriverCanProtocol) (protocol : Nat) (retVal : Nat → Int)
    (retTyp : Nat → MotorDriverCmdType) (encoderLines : Int) (motor : Nat → Motor) (timing : Reporter.Timing)
    (es : List BusEv) (h : Along (step ar) (Steady d) (powerUp protocol retVal retTyp encoderLines motor timing) es) :
    Along (step ar) (Closed ar d) (powerUp protocol retVal retTyp encoderLines motor timing) es :=
  along_of_inv (fun s e hi he => busInv_step s e hi he) (fun s e hi he => closed_of_inv s e hi he) es _
    (busInv_powerUp protocol retVal retTyp encoderLines motor timing) h

/-! ## A run -/

theorem length_driveIDs : ([1, 2] : List Int).length ≤ 4 := by decide

/-- Two wheels with the drive ids 1 and 2. -/
def settings : ChassisConfig :=
  { e := 500, r := fun _ => 100, driveID := [1, 2], driveID_le := length_driveIDs, encoderLines := 2500, reductionRatio := 20,
    motorMaxSpeedRpm := 3000, inverse := fun _ => false }

def driver12 : CDriverCanProtocol := configMotor settings 1 2 (configMotor settings 0 1 (.new (.copleyCAN .speedMode) 2))

def configured : CMileage := (((CMileage.new 0).setParam toInt32 settings).setWheel settings 0).setWheel settings 1

def found : Found := ⟨⟨1, 0, 1⟩, configured, fun _ => ⟨none, 0, 0, 0, fun _ => 0⟩, ⟨0, 0, 0⟩, 0, 0, ⟨0, 0⟩, 0⟩

/-- The host configures the board, which comes up. -/
def comingUp : List BusEv :=
  [.beside (.demand (some ⟨20, doubleDiff, 2⟩)) rfl, .beside (.param (some settings)) rfl, .task found, .task found,
    .beside (.opened true) rfl]

def board0 : Bus := powerUp 0 (fun _ => 0) (fun _ => .null) 0 (fun j => ⟨if j = 0 then 7 else 9, 0⟩) (.start 0 0)

theorem wired_comingUp : Wired driver12 (run (step CMileage.board) board0 comingUp).task := by
  refine ⟨rfl, rfl, fun j hj => ?_⟩
  obtain rfl | rfl : j = 0 ∨ j = 1 := by omega
  · rfl
  · rfl

theorem steady_comingUp (es : List BusEv) (h : ∀ e ∈ es, calm e = true) :
    Along (step CMileage.board) (Steady driver12) board0 (comingUp ++ es) := by
  have hbefore : ∀ {s : Bus} {e : BusEv}, StartUp.Before s.task.pc →
      (s.task.pc = .openCan → ∀ h, e ≠ .beside (.opened false) h) → Steady driver12 s e := by
    intro s e hb ho
    refine ⟨fun hn => absurd hb hn, ho, fun hr => ?_⟩
    rcases hb with hb | hb | hb
    all_goals
      rw [hb] at hr
      cases hr
  refine ⟨hbefore (Or.inl rfl) ?_, hbefore (Or.inl rfl) ?_, hbefore (Or.inl rfl) ?_, hbefore (Or.inr (Or.inl rfl)) ?_,
    hbefore (Or.inr (Or.inr rfl)) ?_, steady_run es _ wired_comingUp h⟩
  · exact nofun
  · exact nofun
  · exact nofun
  · exact nofun
  · intro _ _ heq
    cases heq

/-- The first tick, and the round it starts: drive 1 answers first, and drive 0 turns before it does. -/
def query : List BusEv :=
  [.task found, .task found, .beside .tick rfl, .task found, .task found, .task found, .task found, .task found,
    .task found, .task found, .answer 1, .turn 0 5, .answer 0, .read, .task found, .read, .task found]

theorem rounds_closed_query :
    Along (step CMileage.board) (Closed CMileage.board driver12) board0 (comingUp ++ (query ++ [.task found])) ∧
      (run (step CMileage.board) board0 (comingUp ++ (query ++ [.task found]))).mileage.pos 0 = 12 ∧
      (run (step CMileage.board) board0 (comingUp ++ (query ++ [.task found]))).mileage.pos 1 = 9 := by
  refine ⟨rounds_closed CMileage.board driver12 0 _ _ 0 _ _ _ (steady_comingUp _ ?_), by decide, by decide⟩
  decide

end Bus

end SeerDIOBoard.Chassis
