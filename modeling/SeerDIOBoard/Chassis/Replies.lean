/-
  SeerDIOBoard.Chassis.Replies — which wheel a CAN frame is filed under.

  `waitCmdRet` has its own table for this: 0x581 is wheel 0, 0x582 is wheel 1, any other
  id is wheel 0 (`slot`). The ids the host configured are in the driver, where
  `getMotorIndex` looks a frame's motor up; `waitCmdRet` does not ask it.
  `attributed_iff`: a frame is filed under the wheel it is from just when that wheel is in
  use and the configured id of `slot`'s wheel is the frame's.
-/

import SeerDIOBoard.Chassis.Config

namespace SeerDIOBoard.Chassis

open SeerDIOBoard.Can SeerDIOBoard.Mileage

variable {F : Type}

theorem receive_other (c : CChassisDevice F) (d : CDriverCanProtocol) (cmdType : MotorDriverCmdType) (msg : CanMsg)
    (j : Nat) (hj : j ≠ CChassisDevice.slot msg.chId) :
    (c.receive d cmdType msg).1.retVal j = c.retVal j ∧ (c.receive d cmdType msg).1.retTyp j = c.retTyp j :=
  ⟨Function.update_of_ne hj _ _, Function.update_of_ne hj _ _⟩

theorem receive_retTyp (c : CChassisDevice F) (d : CDriverCanProtocol) (cmdType : MotorDriverCmdType) (msg : CanMsg) :
    (c.receive d cmdType msg).1.retTyp (CChassisDevice.slot msg.chId) =
      (d.decode (c.retVal (CChassisDevice.slot msg.chId)) msg).ct :=
  Function.update_self _ _ _

/-- Wheel `j` of `n` is the one the frame is from. -/
def FromWheel (d : CDriverCanProtocol) (n : Nat) (msg : CanMsg) (j : Nat) : Prop :=
  j < n ∧ d.motorTxId j = some msg.chId

/-- Whatever the entries held and whatever reply is waited for: the frame changes the
    entries of the wheel it is from and no others, and a frame from no wheel changes
    nothing and is not the reply. -/
def Attributed (F : Type) (d : CDriverCanProtocol) (n : Nat) (msg : CanMsg) : Prop :=
  ∀ (c : CChassisDevice F) (cmdType : MotorDriverCmdType),
    (∀ j, (c.receive d cmdType msg).1.retVal j ≠ c.retVal j ∨ (c.receive d cmdType msg).1.retTyp j ≠ c.retTyp j →
      FromWheel d n msg j) ∧
    ((∀ j, ¬ FromWheel d n msg j) →
      (c.receive d cmdType msg).1.retVal = c.retVal ∧ (c.receive d cmdType msg).1.retTyp = c.retTyp ∧
        (c.receive d cmdType msg).2 = false)

theorem attributed_iff [Zero F] (d : CDriverCanProtocol) (n : Nat) (msg : CanMsg) :
    Attributed F d n msg ↔ FromWheel d n msg (CChassisDevice.slot msg.chId) := by
  constructor
  · intro h
    -- an entry that holds another type than the frame's shows the change
    let typ : MotorDriverCmdType := if (d.decode 0 msg).ct = .null then .driState else .null
    have htyp : (d.decode 0 msg).ct ≠ typ := by
      intro he
      by_cases hnull : (d.decode 0 msg).ct = .null
      · rw [hnull] at he
        simp [typ, hnull] at he
      · simp only [typ, if_neg hnull] at he
        exact hnull he
    refine (h (.new 0 (fun _ => 0) fun _ => typ) .null).1 _ (Or.inr ?_)
    rw [receive_retTyp]
    exact htyp
  · intro h c cmdType
    refine ⟨?_, fun hno => absurd h (hno _)⟩
    intro j hj
    by_cases hs : j = CChassisDevice.slot msg.chId
    · rw [hs]
      exact h
    · obtain ⟨hv, ht⟩ := receive_other c d cmdType msg j hs
      rcases hj with hj | hj
      · exact absurd hv hj
      · exact absurd ht hj

/-- The driver of a board whose motors 0 and 1 were given the drive numbers 5 and 6. -/
def driver56 : CDriverCanProtocol :=
  ((CDriverCanProtocol.new (.copleyCAN .speedMode) 2).setMotorTxId 0 (CProtocolCopleyCAN.calcTxID 5)).setMotorTxId 1
    (CProtocolCopleyCAN.calcTxID 6)

/-- A position reply (the value is 7) with the id of motor 1. -/
def posReply586 : CanMsg := { chId := 0x586, cmData := fun i => [0x43, 0x64, 0x60, 0x00, 7, 0, 0, 0].getD i 0 }

theorem reply_filed_under_wheel_0 : ¬ Attributed ℚ driver56 2 posReply586 := by
  intro h
  have hc := (h (.new 0 (fun _ => 0) fun _ => .null) .acturalPos).1 0 (Or.inl (by decide))
  exact absurd hc.2 (by decide)

end SeerDIOBoard.Chassis
