/-
  SeerDIOBoard.Can.Driver — the motor drivers on the CAN bus (`CDriverCanProtocol`,
  src/ProtocolCanDriver.h) and the two that are built (DriverProtocol/Makefile):
  `CProtocolCopleyCAN` and `CProtocolJingZhiCanopen`.

  A driver object holds the CAN ids of the motors, `none` where no one has written the
  entry yet. Both constructors give motor `i` the ids 0x601+i and 0x581+i, for as many
  motors as the chassis has wheels at that moment. `decode` compares a frame with the
  patterns of the replies and takes the value out of bytes 4 to 7. Both `decode`s have
  the same shape (`decodeWith`) and differ in the acknowledgements of a speed command
  they know.

  `ct` is written and never read by `decode`, so it is a result only. Of `getInitMsg` the
  answer is kept (is there another start-up frame), not the frame.
-/

import Mathlib.Algebra.Group.Nat.Defs
import Mathlib.Logic.Function.Basic

namespace SeerDIOBoard.Can

open Function (update)

inductive MotorDriverCmdType where
  | null
  | acturalPos
  | acturalSpeed
  | targetSpeed
  | driState
  | initCmd
  | undefined
  deriving DecidableEq, Repr

structure CanMsg where
  chId : Nat
  cmData : Nat → UInt8

/-- The 32 bits of `n` as an `int32_t`. -/
def toInt32 (n : Int) : Int := n.bmod (2 ^ 32)

/-! ## Decoding -/

/-- `memcmp(pat, data, 8) == 0`; the rest of a short C initialiser is zero. -/
def memcmp8 (pat : List UInt8) (data : Nat → UInt8) : Bool := (List.range 8).all fun i => pat.getD i 0 == data i

/-- The compare-and-copy loop from index `i` on (`k` indices left): whether it ran to
    its end, and `tempVal`. -/
def matchReply (pat : List UInt8) (data : Nat → UInt8) : Nat → Nat → Nat → Bool × Nat
  | 0, _, tempVal => (false, tempVal)
  | k + 1, i, tempVal =>
    if i < 4 ∧ pat.getD i 0 ≠ data i then (false, tempVal)
    else
      let tempVal := if 4 ≤ i then (tempVal / 256 + (data i).toNat * 2 ^ 24) % 2 ^ 32 else tempVal
      if i = 7 then (true, tempVal) else matchReply pat data k (i + 1) tempVal

/-- What `decode` leaves: its result (false for a driver error), the type and the value. -/
structure Decoded where
  ok : Bool
  ct : MotorDriverCmdType
  val : Int
  deriving DecidableEq, Repr

def decodeWith (speedAcks : List (List UInt8)) (posData errData : List UInt8) (val : Int) (msg : CanMsg) : Decoded :=
  if speedAcks.any fun pat => memcmp8 pat msg.cmData then ⟨true, .targetSpeed, val⟩
  else
    let r := matchReply posData msg.cmData 8 0 0
    if r.1 then ⟨true, .acturalPos, toInt32 r.2⟩
    else
      let r := matchReply errData msg.cmData 8 0 r.2
      if r.1 then ⟨false, .driState, toInt32 r.2⟩ else ⟨true, .undefined, val⟩

/-- Only a position or an error code changes the value. -/
theorem decodeWith_val (acks : List (List UInt8)) (pos err : List UInt8) (val : Int) (msg : CanMsg)
    (hp : (decodeWith acks pos err val msg).ct ≠ .acturalPos) (hd : (decodeWith acks pos err val msg).ct ≠ .driState) :
    (decodeWith acks pos err val msg).val = val := by
  unfold decodeWith at hp hd ⊢
  split at hp
  case isTrue h => rw [if_pos h]
  case isFalse h =>
    rw [if_neg h] at hd ⊢
    dsimp only at hp hd ⊢
    split at hp
    · exact absurd rfl hp
    case isFalse h2 =>
      rw [if_neg h2] at hd ⊢
      split at hd
      · exact absurd rfl hd
      case isFalse h3 => rw [if_neg h3]

namespace CProtocolCopleyCAN

def velModeTargetSpeedData : List UInt8 := [0x60, 0x41, 0x23]
def posModeTargetSpeedData : List UInt8 := [0x60, 0xff, 0x60]
def acturalPosData : List UInt8 := [0x43, 0x64, 0x60, 0x00]
def errCodeData : List UInt8 := [0x43, 0x02, 0x10, 0x00]

def decode (val : Int) (msg : CanMsg) : Decoded :=
  decodeWith [posModeTargetSpeedData, velModeTargetSpeedData] acturalPosData errCodeData val msg

def calcRxID (id : Nat) : Nat := (0x600 + id) % 2 ^ 16
def calcTxID (id : Nat) : Nat := (0x580 + id) % 2 ^ 16

end CProtocolCopleyCAN

namespace CProtocolJingZhiCanopen

def targetSpeedData : List UInt8 := [0x60, 0x41, 0x23]
def acturalPosData : List UInt8 := [0x43, 0x64, 0x60, 0x00]
def errCodeData : List UInt8 := [0x43, 0x02, 0x10, 0x00]

def decode (val : Int) (msg : CanMsg) : Decoded := decodeWith [targetSpeedData] acturalPosData errCodeData val msg

def calcRxID (id : Nat) : Nat := (0x600 + id) % 2 ^ 16
def calcTxID (id : Nat) : Nat := (0x580 + id) % 2 ^ 16

end CProtocolJingZhiCanopen

/-! ## Driver objects -/

inductive CtrlModeEnum where
  | speedMode
  | positionMode
  deriving DecidableEq, Repr

inductive DriverClass where
  | copleyCAN (ctrlMode : CtrlModeEnum)
  | jingZhiCanopen (ctrlMode : CtrlModeEnum)
  deriving DecidableEq, Repr

/-- The static `msgCount` of the `getInitMsg` of each class, `none` before its first call. -/
structure InitCount where
  copleyCAN : Option Nat
  jingZhiCanopen : Option Nat
  deriving DecidableEq, Repr

def InitCount.get (c : InitCount) : DriverClass → Option Nat
  | .copleyCAN _ => c.copleyCAN
  | .jingZhiCanopen _ => c.jingZhiCanopen

def InitCount.set (c : InitCount) (cls : DriverClass) (msgCount : Nat) : InitCount :=
  match cls with
  | .copleyCAN _ => { c with copleyCAN := some msgCount }
  | .jingZhiCanopen _ => { c with jingZhiCanopen := some msgCount }

structure CDriverCanProtocol where
  cls : DriverClass
  motorTxId : Nat → Option Nat
  motorRxId : Nat → Option Nat
  inverse : Nat → Option Bool

/-- The constructor, when the chassis has `n` wheels. -/
def CDriverCanProtocol.new (cls : DriverClass) (n : Nat) : CDriverCanProtocol where
  cls := cls
  motorTxId i := if i < n then some (0x581 + i) else none
  motorRxId i := if i < n then some (0x601 + i) else none
  inverse _ := none

namespace CDriverCanProtocol

def decode (d : CDriverCanProtocol) (val : Int) (msg : CanMsg) : Decoded :=
  match d.cls with
  | .copleyCAN _ => CProtocolCopleyCAN.decode val msg
  | .jingZhiCanopen _ => CProtocolJingZhiCanopen.decode val msg

theorem decode_val {d : CDriverCanProtocol} {val : Int} {msg : CanMsg}
    (hp : (d.decode val msg).ct ≠ .acturalPos) (hd : (d.decode val msg).ct ≠ .driState) :
    (d.decode val msg).val = val := by
  unfold CDriverCanProtocol.decode at *
  cases hc : d.cls with
  | copleyCAN m => rw [hc] at hp hd; exact decodeWith_val _ _ _ _ _ hp hd
  | jingZhiCanopen m => rw [hc] at hp hd; exact decodeWith_val _ _ _ _ _ hp hd

def calcRxID (d : CDriverCanProtocol) (id : Nat) : Nat :=
  match d.cls with
  | .copleyCAN _ => CProtocolCopleyCAN.calcRxID id
  | .jingZhiCanopen _ => CProtocolJingZhiCanopen.calcRxID id

def calcTxID (d : CDriverCanProtocol) (id : Nat) : Nat :=
  match d.cls with
  | .copleyCAN _ => CProtocolCopleyCAN.calcTxID id
  | .jingZhiCanopen _ => CProtocolJingZhiCanopen.calcTxID id

def ctrlMode (d : CDriverCanProtocol) : CtrlModeEnum :=
  match d.cls with
  | .copleyCAN m => m
  | .jingZhiCanopen m => m

def setMotorRxId (d : CDriverCanProtocol) (idx id : Nat) : CDriverCanProtocol :=
  { d with motorRxId := update d.motorRxId idx (some id) }

def setMotorTxId (d : CDriverCanProtocol) (idx id : Nat) : CDriverCanProtocol :=
  { d with motorTxId := update d.motorTxId idx (some id) }

def setMotorInverse (d : CDriverCanProtocol) (idx : Nat) (inverse : Bool) : CDriverCanProtocol :=
  { d with inverse := update d.inverse idx (some inverse) }

/-- `getInitMsg`, with `n` wheels: whether there is another start-up frame, and what is
    left of the static counters. -/
def getInitMsg (d : CDriverCanProtocol) (n : Nat) (count : InitCount) : Bool × InitCount :=
  let msgCount := (count.get d.cls).getD n
  match d.ctrlMode with
  | .speedMode => (false, count.set d.cls msgCount)
  | .positionMode =>
    if 0 < msgCount then (true, count.set d.cls (msgCount - 1)) else (false, count.set d.cls n)

/-- `getMotorIndex`, with `none` for the code's -1: the first motor with the frame's id. -/
def getMotorIndex (d : CDriverCanProtocol) (msg : CanMsg) : Option Nat :=
  (List.range 4).find? fun i => d.motorTxId i == some msg.chId

end CDriverCanProtocol

end SeerDIOBoard.Can
