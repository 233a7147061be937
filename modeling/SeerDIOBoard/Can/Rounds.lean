/-
  SeerDIOBoard.Can.Rounds — a command round of the chassis task over a driver with an
  in-band start-up: `encode` for every wheel (`sendSpeedCmd`, `sendQueryCmd`), then
  `waitCmdRet` for as many replies of the type asked for.

  A drive is an SDO server. It goes by the command specifier, the top three bits of the
  first byte: 1 is a write, answered with 0x60, and 2 a read, answered with the object. To
  anything else it may say what it likes.

  A round is served when every motor was sent a frame and the reply to each frame it was
  sent is decoded as the command waited for. Then one reply of each motor lets
  `waitCmdRet` return (`Served.returns`).
-/

import SeerDIOBoard.Lib.Machine
import SeerDIOBoard.Can.InBand

namespace SeerDIOBoard.Can

open Function (update)
open Lib.Bytes Lib.Machine SeerDIOBoard.Mileage

/-! ## Drives -/

structure Drive where
  chId : Nat
  value : UInt32
  other : (Nat → UInt8) → Option (Nat → UInt8)

/-- The reply to a read: the status word has two bytes, a position four. -/
def uploadData (value : UInt32) (req : Nat → UInt8) : List UInt8 :=
  if req 1 = 0x41 ∧ req 2 = 0x60 then [0x4B, req 1, req 2, req 3] ++ leBytes 2 value.toNat ++ [0, 0]
  else [0x43, req 1, req 2, req 3] ++ leBytes 4 value.toNat

def Drive.answer (d : Drive) (req : Nat → UInt8) : Option CanMsg :=
  if req 0 >>> 5 = 1 then some { chId := d.chId, cmData := bytesOf [0x60, req 1, req 2, req 3, 0, 0, 0, 0] }
  else if req 0 >>> 5 = 2 then some { chId := d.chId, cmData := bytesOf (uploadData d.value req) }
  else (d.other req).map fun data => { chId := d.chId, cmData := data }

/-! ## Drivers and rounds -/

/-- What else is done to a driver between rounds. -/
inductive Op where
  | construct
  | getInitMsg
  | setMotorRxId (idx id : Nat)
  | decode (val : Int) (msg : CanMsg)
  | parseErrCode (errCode : UInt32)

structure InBand (σ : Type) where
  encode : CMileage → σ → Nat → MotorDriverCmdType → Int → StdTxMsg → Option (σ × StdTxMsg)
  decode : CMileage → σ → Int → CanMsg → σ × Decoded
  motorRxId : σ → Nat → Nat
  op : CMileage → σ → Op → σ
  /-- Only a status word can put a driver back into its start-up. -/
  decode_keeps : ∀ m s val msg, (decode m s val msg).2.ct ≠ .driState → (decode m s val msg).1 = s

/-- The commands the task sends to all wheels and waits for. -/
inductive Waited where
  | targetSpeed
  | acturalPos
  deriving DecidableEq, Repr

def Waited.ct : Waited → MotorDriverCmdType
  | .targetSpeed => .targetSpeed
  | .acturalPos => .acturalPos

theorem Waited.targetSpeed_of_ct {cmd : Waited} (h : cmd.ct = .targetSpeed) : cmd = .targetSpeed := by
  cases cmd with
  | targetSpeed => rfl
  | acturalPos => cases h

theorem Waited.ct_ne_undefined (cmd : Waited) : cmd.ct ≠ .undefined := by
  cases cmd with
  | targetSpeed => exact MotorDriverCmdType.noConfusion
  | acturalPos => exact MotorDriverCmdType.noConfusion

theorem Waited.ct_ne_driState (cmd : Waited) : cmd.ct ≠ .driState := by
  cases cmd with
  | targetSpeed => exact MotorDriverCmdType.noConfusion
  | acturalPos => exact MotorDriverCmdType.noConfusion

/-- A round: the command, `getVel` of each wheel, the locals the frames are built in, and
    the drives. -/
structure Round where
  cmd : Waited
  val : Nat → Int
  txMessage : Nat → StdTxMsg
  drive : Nat → Drive

variable {σ : Type}

namespace InBand

/-- The loop over the wheels from wheel `i` on (`k` left). -/
def sendAll (b : InBand σ) (m : CMileage) (r : Round) : Nat → Nat → σ → Option (σ × List StdTxMsg)
  | 0, _, s => some (s, [])
  | k + 1, i, s =>
    match b.encode m s i r.cmd.ct (r.val i) (r.txMessage i) with
    | none => none
    | some (s, f) => (b.sendAll m r k (i + 1) s).map fun rest => (rest.1, f :: rest.2)

theorem sendAll_cons {b : InBand σ} {m : CMileage} {r : Round} {k i : Nat} {s s' : σ} {frames : List StdTxMsg}
    (h : b.sendAll m r (k + 1) i s = some (s', frames)) :
    ∃ s1 f rest, b.encode m s i r.cmd.ct (r.val i) (r.txMessage i) = some (s1, f) ∧
      b.sendAll m r k (i + 1) s1 = some (s', rest) ∧ frames = f :: rest := by
  rw [sendAll] at h
  cases he : b.encode m s i r.cmd.ct (r.val i) (r.txMessage i) with
  | none => rw [he] at h; cases h
  | some p =>
    rw [he] at h
    obtain ⟨rest, hrest, hp⟩ := Option.map_eq_some_iff.mp h
    obtain ⟨rfl, rfl⟩ := Prod.mk.inj hp
    exact ⟨p.1, p.2, rest.2, rfl, hrest, rfl⟩

/-- A reply of motor `i` to a frame it was sent. -/
def Reply (b : InBand σ) (r : Round) (s : σ) (frames : List StdTxMsg) (i : Nat) (msg : CanMsg) : Prop :=
  ∃ f ∈ frames, f.stdId = b.motorRxId s i ∧ (r.drive i).answer f.data = some msg

def Served (b : InBand σ) (m : CMileage) (s : σ) (r : Round) : Prop :=
  ∃ s' frames, b.sendAll m r m.numOfWheel 0 s = some (s', frames) ∧
    ∀ i, i < m.numOfWheel → (∃ msg, b.Reply r s' frames i msg) ∧
      ∀ val msg, b.Reply r s' frames i msg → (b.decode m s' val msg).2.ct = r.cmd.ct

/-- `waitCmdRet` over the frames that come in, with `k` replies to go: does it return. -/
def waitCmdRet (b : InBand σ) (m : CMileage) (ct : MotorDriverCmdType) (retVal : CanMsg → Int) :
    List CanMsg → Nat → σ → Bool
  | _, 0, _ => true
  | [], _ + 1, _ => false
  | msg :: l, k + 1, s =>
    let d := b.decode m s (retVal msg) msg
    waitCmdRet b m ct retVal l (if d.2.ct = ct then k else k + 1) d.1

theorem waitCmdRet_of_all (b : InBand σ) (m : CMileage) (cmd : Waited) (retVal : CanMsg → Int) (s : σ)
    (l : List CanMsg) (h : ∀ msg ∈ l, ∀ val, (b.decode m s val msg).2.ct = cmd.ct) :
    b.waitCmdRet m cmd.ct retVal l l.length s = true := by
  induction l with
  | nil => rfl
  | cons msg l ih =>
    have hct := h msg List.mem_cons_self (retVal msg)
    have hkeep : (b.decode m s (retVal msg) msg).1 = s := by
      refine b.decode_keeps m s _ msg ?_
      rw [hct]
      exact cmd.ct_ne_driState
    rw [List.length_cons, waitCmdRet]
    simp only [hct, if_true, hkeep]
    exact ih fun msg' hmem => h msg' (List.mem_cons_of_mem msg hmem)

/-- After the frames are sent, one reply for each wheel, in any order, lets the task go on. -/
def Returns (b : InBand σ) (m : CMileage) (s : σ) (r : Round) : Prop :=
  ∃ s' frames, b.sendAll m r m.numOfWheel 0 s = some (s', frames) ∧
    ∀ (retVal : CanMsg → Int) (l : List CanMsg), l.length = m.numOfWheel →
      (∀ msg ∈ l, ∃ i, i < m.numOfWheel ∧ b.Reply r s' frames i msg) →
      b.waitCmdRet m r.cmd.ct retVal l m.numOfWheel s' = true

theorem Served.returns {b : InBand σ} {m : CMileage} {s : σ} {r : Round} (h : b.Served m s r) : b.Returns m s r := by
  obtain ⟨s', frames, hsent, hserved⟩ := h
  refine ⟨s', frames, hsent, fun retVal l hlen hall => ?_⟩
  rw [← hlen]
  refine waitCmdRet_of_all b m r.cmd retVal s' l fun msg hmem val => ?_
  obtain ⟨i, hi, hreply⟩ := hall msg hmem
  exact (hserved i hi).2 val msg hreply

end InBand

/-! ## The system -/

structure Station (σ : Type) where
  driver : σ
  mileage : CMileage

inductive Ev where
  | mileage (m : CMileage)
  | op (o : Op)
  | round (r : Round)

def InBand.step (b : InBand σ) (s : Station σ) : Ev → Station σ
  | .mileage m => { s with mileage := m }
  | .op o => { s with driver := b.op s.mileage s.driver o }
  | .round r =>
    match b.sendAll s.mileage r s.mileage.numOfWheel 0 s.driver with
    | some (d, _) => { s with driver := d }
    | none => s

/-- `P` of the rounds of a run. -/
def OnRound (P : CMileage → σ → Round → Prop) (s : Station σ) : Ev → Prop
  | .round r => P s.mileage s.driver r
  | _ => True

theorem along_rounds {b : InBand σ} {P Q : CMileage → σ → Round → Prop} (h : ∀ m d r, P m d r → Q m d r)
    {s : Station σ} {es : List Ev} (hp : Along b.step (OnRound P) s es) :
    Along b.step (OnRound Q) s es := by
  rw [along_iff_forall] at hp ⊢
  intro p e q he
  have hpe := hp p e q he
  cases e with
  | mileage m => trivial
  | op o => trivial
  | round r => exact h _ _ _ hpe

theorem along_rounds_iff {b : InBand σ} {P Q : CMileage → σ → Round → Prop} (h : ∀ m d r, P m d r ↔ Q m d r)
    {s : Station σ} {es : List Ev} : Along b.step (OnRound P) s es ↔ Along b.step (OnRound Q) s es :=
  ⟨along_rounds fun m d r => (h m d r).mp, along_rounds fun m d r => (h m d r).mpr⟩

theorem along_rounds_and {b : InBand σ} {P Q : CMileage → σ → Round → Prop} {s : Station σ} {es : List Ev}
    (hp : Along b.step (OnRound P) s es) (hq : Along b.step (OnRound Q) s es) :
    Along b.step (OnRound fun m d r => P m d r ∧ Q m d r) s es := by
  rw [along_iff_forall] at hp hq ⊢
  intro p e q he
  have hpe := hp p e q he
  have hqe := hq p e q he
  cases e with
  | mileage m => trivial
  | op o => trivial
  | round r => exact ⟨hpe, hqe⟩

/-! ## The three drivers -/

namespace InBandDriver

/-- Delta and HLS differ in the table and in `getInitMsg`. -/
def inBand (t : InBandTable) (getInitMsg : CMileage → InBandDriver → Bool × InBandDriver) : InBand InBandDriver where
  encode m d i ct val msg := some (InBandDriver.encode t m d i ct val msg)
  decode _ d val msg := (d, InBandDriver.decode t d val msg)
  motorRxId := InBandDriver.motorRxId
  op m d
    | .construct => d.construct m
    | .getInitMsg => (getInitMsg m d).2
    | .setMotorRxId idx id => { d with motorRxId := update d.motorRxId idx id }
    | .decode _ _ => d
    | .parseErrCode _ => d
  decode_keeps _ _ _ _ _ := rfl

end InBandDriver

def CProtocolDeltaCANOpen.inBand : InBand InBandDriver := InBandDriver.inBand table getInitMsg

def CProtocolHlsCANOpen.inBand : InBand InBandDriver := InBandDriver.inBand table getInitMsg

namespace CProtocolMingZhiCanopen

theorem decode_keeps (m : CMileage) (d : CProtocolMingZhiCanopen) (val : Int) (msg : CanMsg)
    (h : (decode m d val msg).2.ct ≠ .driState) : (decode m d val msg).1 = d := by
  unfold decode at h ⊢
  split
  · rfl
  case isFalse hs =>
    rw [if_neg hs] at h
    split
    · rfl
    case isFalse hack =>
      rw [if_neg hack] at h
      dsimp only at h ⊢
      split
      case isTrue hct =>
        rw [if_pos hct] at h
        exact absurd hct h
      case isFalse => rfl

def inBand : InBand CProtocolMingZhiCanopen where
  encode := encode
  decode := decode
  motorRxId := motorRxId
  op m d
    | .construct => construct m d
    | .getInitMsg => d
    | .setMotorRxId idx id => { d with motorRxId := update d.motorRxId idx id }
    | .decode val msg => (decode m d val msg).1
    | .parseErrCode errCode => parseErrCode m d errCode
  decode_keeps := decode_keeps

end CProtocolMingZhiCanopen

end SeerDIOBoard.Can
