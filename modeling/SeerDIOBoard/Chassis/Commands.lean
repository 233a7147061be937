/-
  SeerDIOBoard.Chassis.Commands — the requests of the chassis task over whole runs, with
  `newSpeedCmd`, `queryOdoCmd` and `waitCmd` each as one step (`Chassis.Task` has them in
  pieces).

  `waitCmd` leaves the current command as it was when it finds no flag set, and returns
  it again. Requests that coalesce leave tokens behind: two speed commands before the
  task runs are one flag and two tokens. `noStale_iff`: the commands returned are all
  backed by a flag, and none is returned more often than it was requested, exactly in the
  runs where no token is taken with all flags clear after a first command.
-/

import SeerDIOBoard.Lib.Machine
import Mathlib.Algebra.Order.Field.Rat
import SeerDIOBoard.Chassis.Device

namespace SeerDIOBoard.Chassis.Commands

open Lib.Machine

variable {F : Type}

inductive Ev where
  | newSpeedCmd
  | queryOdoCmd
  /-- `waitCmd` with a token. -/
  | waitToken
  /-- `waitCmd`, interrupted by a tick. -/
  | waitTick
  deriving DecidableEq, Repr

/-- One request or one call of `waitCmd`; without a token `waitCmd` blocks. -/
def step (c : CChassisDevice F) : Ev → CChassisDevice F
  | .newSpeedCmd => c.newSpeedCmd
  | .queryOdoCmd => c.queryOdoCmd
  | .waitToken => if 0 < c.cmdSem then (c.waitCmd .token).2 else c
  | .waitTick => (c.queryOdoCmd.waitCmd .eintr).2

/-! ## Requests and answers -/

/-- `waitCmd`, woken in `c`, returned `r` and left `c'`: the flag of the command was set
    and is clear now. -/
structure Answers (c : CChassisDevice F) (r : Int) (c' : CChassisDevice F) : Prop where
  speed : r = 1 → c.bNewSpeedCmd = true ∧ c'.bNewSpeedCmd = false
  odo : r = 2 → c.bOdoCmd = true ∧ c'.bOdoCmd = false
  state : r = 3 → c.bStateCmd = true ∧ c'.bStateCmd = false

def Backed (c : CChassisDevice F) : Ev → Prop
  | .waitToken => 0 < c.cmdSem → Answers c (c.waitCmd .token).1 (c.waitCmd .token).2
  | .waitTick => Answers c.queryOdoCmd (c.queryOdoCmd.waitCmd .eintr).1 (c.queryOdoCmd.waitCmd .eintr).2
  | _ => True

/-- A token is taken with a flag set, or before there was any command. -/
def HasRequest (c : CChassisDevice F) : Ev → Prop
  | .waitToken =>
    0 < c.cmdSem → c.bNewSpeedCmd = true ∨ c.bOdoCmd = true ∨ c.bStateCmd = true ∨ c.currentCmd = 0
  | _ => True

/-- How often (once or not at all) the step returns command `r`. -/
def answer (r : Int) (c : CChassisDevice F) : Ev → Nat
  | .waitToken => if 0 < c.cmdSem ∧ (c.waitCmd .token).1 = r then 1 else 0
  | .waitTick => if (c.queryOdoCmd.waitCmd .eintr).1 = r then 1 else 0
  | _ => 0

/-- How often the run returns command `r`. -/
def answers (r : Int) : CChassisDevice F → List Ev → Nat
  | _, [] => 0
  | c, e :: es => answer r c e + answers r (step c e) es

def speedRequests (es : List Ev) : Nat := es.count .newSpeedCmd

def odoRequests (es : List Ev) : Nat := es.count .queryOdoCmd + es.count .waitTick

/-- No command is returned without its flag, nor more often than it was requested. -/
structure NoStale (c : CChassisDevice F) (es : List Ev) : Prop where
  backed : Along step Backed c es
  speed : answers 1 c es ≤ speedRequests es
  odo : answers 2 c es ≤ odoRequests es
  state : answers 3 c es = 0

/-! ## One call of `waitCmd` -/

theorem takeCmd_cases (c : CChassisDevice F) :
    (c.bNewSpeedCmd = true ∧ c.takeCmd = { c with bNewSpeedCmd := false, currentCmd := 1 }) ∨
    (c.bNewSpeedCmd = false ∧ c.bOdoCmd = true ∧ c.takeCmd = { c with bOdoCmd := false, currentCmd := 2 }) ∨
    (c.bNewSpeedCmd = false ∧ c.bOdoCmd = false ∧ c.bStateCmd = true ∧
      c.takeCmd = { c with bStateCmd := false, currentCmd := 3 }) ∨
    (c.bNewSpeedCmd = false ∧ c.bOdoCmd = false ∧ c.bStateCmd = false ∧ c.takeCmd = c) := by
  unfold CChassisDevice.takeCmd
  cases c.bNewSpeedCmd <;> cases c.bOdoCmd <;> cases c.bStateCmd <;> simp

theorem takeCmd_answers (c : CChassisDevice F) (h : c.currentCmd ≤ 3) :
    Answers c c.takeCmd.currentCmd c.takeCmd ↔
      c.bNewSpeedCmd = true ∨ c.bOdoCmd = true ∨ c.bStateCmd = true ∨ c.currentCmd = 0 := by
  rcases takeCmd_cases c with ⟨hs, ht⟩ | ⟨hs, ho, ht⟩ | ⟨hs, ho, hq, ht⟩ | ⟨hs, ho, hq, ht⟩
  · rw [ht]
    exact ⟨fun _ => Or.inl hs, fun _ => ⟨fun _ => ⟨hs, rfl⟩, fun h => by simp at h, fun h => by simp at h⟩⟩
  · rw [ht]
    exact ⟨fun _ => Or.inr (Or.inl ho), fun _ => ⟨fun h => by simp at h, fun _ => ⟨ho, rfl⟩, fun h => by simp at h⟩⟩
  · rw [ht]
    exact ⟨fun _ => Or.inr (Or.inr (Or.inl hq)),
      fun _ => ⟨fun h => by simp at h, fun h => by simp at h, fun _ => ⟨hq, rfl⟩⟩⟩
  · -- no flag: the current command is returned again
    rw [ht]
    constructor
    · intro ha
      refine Or.inr (Or.inr (Or.inr ?_))
      have h1 : c.currentCmd ≠ 1 := fun he => by simpa [hs] using (ha.speed (by rw [he]; rfl)).1
      have h2 : c.currentCmd ≠ 2 := fun he => by simpa [ho] using (ha.odo (by rw [he]; rfl)).1
      have h3 : c.currentCmd ≠ 3 := fun he => by simpa [hq] using (ha.state (by rw [he]; rfl)).1
      omega
    · intro hor
      have h0 : c.currentCmd = 0 := by simpa [hs, ho, hq] using hor
      rw [h0]
      exact ⟨fun h => by simp at h, fun h => by simp at h, fun h => by simp at h⟩

theorem backed_step (c : CChassisDevice F) (e : Ev) (h : c.currentCmd ≤ 3) : Backed c e ↔ HasRequest c e := by
  cases e with
  | newSpeedCmd => exact Iff.rfl
  | queryOdoCmd => exact Iff.rfl
  | waitToken =>
    have ht := takeCmd_answers c.semTake h
    unfold Backed HasRequest
    exact imp_congr_right fun _ =>
      ⟨fun ha => ht.mp ⟨ha.speed, ha.odo, ha.state⟩, fun hr => ⟨(ht.mpr hr).speed, (ht.mpr hr).odo, (ht.mpr hr).state⟩⟩
  | waitTick => exact ⟨fun _ => trivial, fun _ => (takeCmd_answers c.queryOdoCmd h).mpr (Or.inr (Or.inl rfl))⟩

theorem takeCmd_currentCmd_le (c : CChassisDevice F) (h : c.currentCmd ≤ 3) : c.takeCmd.currentCmd ≤ 3 := by
  rcases takeCmd_cases c with ⟨_, ht⟩ | ⟨_, _, ht⟩ | ⟨_, _, _, ht⟩ | ⟨_, _, _, ht⟩
  all_goals simp [ht, h]

theorem currentCmd_step (c : CChassisDevice F) (e : Ev) (h : c.currentCmd ≤ 3) : (step c e).currentCmd ≤ 3 := by
  cases e with
  | newSpeedCmd => exact h
  | queryOdoCmd => exact h
  | waitToken =>
    simp only [step]
    split
    · exact takeCmd_currentCmd_le c.semTake h
    · exact h
  | waitTick => exact takeCmd_currentCmd_le c.queryOdoCmd h

/-! ## Runs -/

/-- A flag and the answers it backs: an answer uses the flag up, and `waitCmd` sets none. -/
theorem takeCmd_uses (c : CChassisDevice F) (ha : Answers c c.takeCmd.currentCmd c.takeCmd) :
    (if (c.takeCmd.currentCmd : Int) = 1 then 1 else 0) + c.takeCmd.bNewSpeedCmd.toNat ≤ c.bNewSpeedCmd.toNat ∧
    (if (c.takeCmd.currentCmd : Int) = 2 then 1 else 0) + c.takeCmd.bOdoCmd.toNat ≤ c.bOdoCmd.toNat ∧
    (if (c.takeCmd.currentCmd : Int) = 3 then 1 else 0) + c.takeCmd.bStateCmd.toNat ≤ c.bStateCmd.toNat := by
  rcases takeCmd_cases c with ⟨hs, ht⟩ | ⟨hs, ho, ht⟩ | ⟨hs, ho, hq, ht⟩ | ⟨hs, ho, hq, ht⟩
  · simp [ht, hs]
  · simp [ht, ho]
  · simp [ht, hq]
  · rw [ht] at ha ⊢
    have h1 : (c.currentCmd : Int) ≠ 1 := fun he => by simpa [hs] using (ha.speed he).1
    have h2 : (c.currentCmd : Int) ≠ 2 := fun he => by simpa [ho] using (ha.odo he).1
    have h3 : (c.currentCmd : Int) ≠ 3 := fun he => by simpa [hq] using (ha.state he).1
    simp [h1, h2, h3]

/-- What one step answers, and what it leaves to be answered. -/
theorem answer_step (c : CChassisDevice F) (e : Ev) (h : Backed c e) :
    answer 1 c e + (step c e).bNewSpeedCmd.toNat ≤ speedRequests [e] + c.bNewSpeedCmd.toNat ∧
    answer 2 c e + (step c e).bOdoCmd.toNat ≤ odoRequests [e] + c.bOdoCmd.toNat ∧
    answer 3 c e + (step c e).bStateCmd.toNat ≤ c.bStateCmd.toNat := by
  cases e with
  | newSpeedCmd => simp [answer, step, CChassisDevice.newSpeedCmd, speedRequests, odoRequests]
  | queryOdoCmd => simp [answer, step, CChassisDevice.queryOdoCmd, speedRequests, odoRequests]
  | waitToken =>
    by_cases hsem : 0 < c.cmdSem
    · have ha : Answers c.semTake c.semTake.takeCmd.currentCmd c.semTake.takeCmd :=
        ⟨(h hsem).speed, (h hsem).odo, (h hsem).state⟩
      obtain ⟨h1, h2, h3⟩ := takeCmd_uses c.semTake ha
      simp only [answer, step, hsem, true_and, if_true, CChassisDevice.waitCmd]
      exact ⟨Nat.le_trans h1 (Nat.le_add_left _ _), Nat.le_trans h2 (Nat.le_add_left _ _), h3⟩
    · simp [answer, step, hsem]
  | waitTick =>
    -- the tick is the request for what the interrupted wait may answer
    obtain ⟨h1, h2, h3⟩ := takeCmd_uses c.queryOdoCmd h
    exact ⟨Nat.le_trans h1 (Nat.le_add_left _ _), Nat.le_trans h2 (Nat.le_add_right _ _), h3⟩

theorem requests_cons (e : Ev) (es : List Ev) :
    speedRequests (e :: es) = speedRequests [e] + speedRequests es ∧
      odoRequests (e :: es) = odoRequests [e] + odoRequests es := by
  unfold speedRequests odoRequests
  rw [← List.singleton_append, List.count_append, List.count_append, List.count_append]
  exact ⟨rfl, by omega⟩

theorem answers_le (es : List Ev) : ∀ c : CChassisDevice F, Along step Backed c es →
    answers 1 c es ≤ speedRequests es + c.bNewSpeedCmd.toNat ∧
    answers 2 c es ≤ odoRequests es + c.bOdoCmd.toNat ∧ answers 3 c es ≤ c.bStateCmd.toNat := by
  induction es with
  | nil =>
    intro c _
    exact ⟨Nat.zero_le _, Nat.zero_le _, Nat.zero_le _⟩
  | cons e es ih =>
    intro c h
    obtain ⟨i1, i2, i3⟩ := ih (step c e) h.2
    obtain ⟨a1, a2, a3⟩ := answer_step c e h.1
    obtain ⟨r1, r2⟩ := requests_cons e es
    rw [r1, r2]
    unfold answers
    exact ⟨by omega, by omega, by omega⟩

theorem noStale_iff [Zero F] (protocol : Nat) (retVal : Nat → Int) (retTyp : Nat → Can.MotorDriverCmdType)
    (es : List Ev) :
    NoStale (.new protocol retVal retTyp : CChassisDevice F) es ↔
      Along step HasRequest (.new protocol retVal retTyp : CChassisDevice F) es := by
  have hiff : Along step Backed (.new protocol retVal retTyp : CChassisDevice F) es ↔ Along step HasRequest _ es :=
    along_iff_of_inv (I := fun c => c.currentCmd ≤ 3) (fun c e hc _ => currentCmd_step c e hc) backed_step es _
      (Nat.zero_le 3)
  constructor
  · intro h
    exact hiff.mp h.backed
  · intro h
    have hb := hiff.mpr h
    obtain ⟨h1, h2, h3⟩ := answers_le es _ hb
    exact ⟨hb, h1, h2, Nat.le_zero.mp h3⟩

/-- Two speed commands, then a tick: the speed command is answered without a token, the
    odometry once with a token and once more with the token left over. -/
theorem odo_answered_twice :
    ¬ NoStale (.new 0 (fun _ => 0) fun _ => .null : CChassisDevice ℚ)
      [.newSpeedCmd, .newSpeedCmd, .waitTick, .waitToken, .waitToken] := by
  intro h
  exact absurd h.odo (by decide)

end SeerDIOBoard.Chassis.Commands
