/-
  SeerDIOBoard.Can.StartUp — the three drivers with an in-band start-up, over every run:
  rounds of the chassis task with anything in between (a new driver object, new ids, other
  wheels, `getInitMsg`, frames decoded on their own).

  `start_up_served`: the rounds that are served are those that find the driver ready.
  For Delta and HLS that is all there is to it. MingZhi serves every round it is ready for,
  and where the motors have ids of their own it serves no others.

  `query_first_not_served` are the first rounds that go wrong: a query for the odometer
  before the first speed command with Delta or HLS, and any command with MingZhi. The task
  then waits for replies that have already come, or that no motor sends.
-/

import SeerDIOBoard.Can.MingZhi

namespace SeerDIOBoard.Can

open Lib.Machine SeerDIOBoard.Mileage

/-! ## The runs that are served -/

theorem start_up_served (s : Station InBandDriver) (z : Station CProtocolMingZhiCanopen) (es : List Ev) :
    (Along CProtocolDeltaCANOpen.inBand.step (OnRound (InBandDriver.Ready CProtocolDeltaCANOpen.table)) s es ↔
      Along CProtocolDeltaCANOpen.inBand.step (OnRound CProtocolDeltaCANOpen.inBand.Served) s es) ∧
    (Along CProtocolHlsCANOpen.inBand.step (OnRound (InBandDriver.Ready CProtocolHlsCANOpen.table)) s es ↔
      Along CProtocolHlsCANOpen.inBand.step (OnRound CProtocolHlsCANOpen.inBand.Served) s es) ∧
    (Along CProtocolMingZhiCanopen.inBand.step (OnRound CProtocolMingZhiCanopen.Ready) z es →
      Along CProtocolMingZhiCanopen.inBand.step (OnRound CProtocolMingZhiCanopen.inBand.Served) z es) ∧
    (Along CProtocolMingZhiCanopen.inBand.step (OnRound fun _ d _ => CProtocolMingZhiCanopen.Sane d) z es →
      Along CProtocolMingZhiCanopen.inBand.step (OnRound CProtocolMingZhiCanopen.inBand.Served) z es →
      Along CProtocolMingZhiCanopen.inBand.step (OnRound CProtocolMingZhiCanopen.Ready) z es) ∧
    ∀ (σ : Type) (b : InBand σ) (m : CMileage) (d : σ) (r : Round), b.Served m d r → b.Returns m d r := by
  refine ⟨?_, ?_, ?_, fun hsane hserved => ?_, fun σ b m d r h => h.returns⟩
  · exact along_rounds_iff fun m d r => (InBandDriver.served_iff InBandDriver.startsUp_delta m d r).symm
  · exact along_rounds_iff fun m d r => (InBandDriver.served_iff InBandDriver.startsUp_hls m d r).symm
  · exact along_rounds fun m d r => CProtocolMingZhiCanopen.served_of_ready
  · exact along_rounds (fun m d r h => CProtocolMingZhiCanopen.ready_of_served h.1 h.2)
      (along_rounds_and hsane hserved)

/-! ## First commands -/

def drives (i : Nat) : Drive := { chId := 0x581 + i, value := 0, other := fun _ => none }

def blankStd : StdTxMsg := { stdId := 0, data := fun _ => 0 }

def speedRound : Round := { cmd := .targetSpeed, val := fun _ => 0, txMessage := fun _ => blankStd, drive := drives }

def queryRound : Round := { speedRound with cmd := .acturalPos }

/-- Two wheels and a driver just built, in memory that was zero. -/
def newDriver : Station InBandDriver where
  driver := InBandDriver.construct (.new 2500)
    { isInitSend := false, msgCount := 0, initOperateCount := 0, motorRxId := fun _ => 0 }
  mileage := .new 2500

/-- The same with MingZhi, the ids of the other wheels following on. -/
def newMingZhi : Station CProtocolMingZhiCanopen where
  driver := CProtocolMingZhiCanopen.construct (.new 2500)
    { isInitSend := false, msgCount := 10, count := 0, motorRxId := fun i => 0x601 + i }
  mileage := .new 2500

def startedMingZhi : Station CProtocolMingZhiCanopen :=
  { newMingZhi with driver := { newMingZhi.driver with isInitSend := true } }

theorem start_up_served_speedFirst :
    Along CProtocolDeltaCANOpen.inBand.step (OnRound CProtocolDeltaCANOpen.inBand.Served) newDriver
        [.round speedRound, .round speedRound] ∧
      Along CProtocolMingZhiCanopen.inBand.step (OnRound CProtocolMingZhiCanopen.inBand.Served) startedMingZhi
        [.round queryRound] := by
  obtain ⟨hdelta, _⟩ := start_up_served newDriver startedMingZhi [.round speedRound, .round speedRound]
  obtain ⟨_, _, hmingZhi, _⟩ := start_up_served newDriver startedMingZhi [.round queryRound]
  refine ⟨hdelta.mp ⟨.inr (.inr (.inr ⟨rfl, ?_⟩)), .inr (.inr (.inr ⟨rfl, ?_⟩)), trivial⟩,
    hmingZhi ⟨.inr (.inl rfl), trivial⟩⟩
  · decide
  · decide

theorem query_first_not_served :
    ¬ Along CProtocolDeltaCANOpen.inBand.step (OnRound CProtocolDeltaCANOpen.inBand.Served) newDriver
        [.round queryRound] ∧
      ¬ Along CProtocolHlsCANOpen.inBand.step (OnRound CProtocolHlsCANOpen.inBand.Served) newDriver
        [.round queryRound] ∧
      ¬ Along CProtocolMingZhiCanopen.inBand.step (OnRound CProtocolMingZhiCanopen.inBand.Served) newMingZhi
        [.round speedRound] := by
  refine ⟨fun h => ?_, fun h => ?_, fun h => ?_⟩
  · rcases InBandDriver.ready_of_served InBandDriver.startsUp_delta h.1 with h | h | h | h
    · exact absurd h (by decide)
    · cases h
    · exact absurd h (by decide)
    · cases h.1
  · rcases InBandDriver.ready_of_served InBandDriver.startsUp_hls h.1 with h | h | h | h
    · exact absurd h (by decide)
    · cases h
    · exact absurd h (by decide)
    · cases h.1
  · have hsane : CProtocolMingZhiCanopen.Sane newMingZhi.driver := by
      have hid : ∀ i, newMingZhi.driver.motorRxId i = 0x601 + i := fun i => ite_self _
      refine ⟨fun i j _ _ h => ?_, fun i hi h => ?_⟩
      · rw [hid, hid] at h
        omega
      · rw [hid] at h
        omega
    rcases CProtocolMingZhiCanopen.ready_of_served hsane h.1 with h | h | h
    · exact absurd h (by decide)
    · cases h
    · exact absurd h.1 (by decide)

end SeerDIOBoard.Can
