/-
  SeerDIOBoard.Gyro.Accesses — where the receiver reads and writes `rx_buffer`.

  The functions of `SeerDIOBoard.Gyro.Receiver` once more, with every index of the buffer
  they use recorded, in the source's order; `decodeFrameAt_val` says that they are the same
  functions.

  The write index stays in the array, and a completed frame's length byte is the number of
  bytes written. So the checksum is read inside the array for every length but 1: then
  `Sum_check` reads `rx_buffer[-1]`, and `inBuffer_iff` says that a byte 01 at the start of
  the buffer is the only way there.
-/

import SeerDIOBoard.Lib.Machine
import SeerDIOBoard.Lib.Trace
import SeerDIOBoard.Gyro.Frames

namespace SeerDIOBoard.Gyro.Receiver

open Lib.Machine Lib.Trace
open Function (update update_self update_of_ne)

/-! ## The functions with their accesses -/

/-- `rx_buffer[i]`. -/
def rxAt (buf : Int → UInt8) (i : Int) : Traced Int UInt8 := touch i (buf i)

def raw16At (buf : Int → UInt8) (i : Int) : Traced Int Nat := do
  let hi ← rxAt buf i
  let lo ← rxAt buf (i + 1)
  pure (hi.toNat * 256 + lo.toNat)

def fieldAt (buf : Int → UInt8) (i : Int) : Traced Int Int := do
  let temp ← raw16At buf i
  pure (signMag temp)

/-- The loop reads the length byte again before each turn. -/
def sumCheckAt (buf : Int → UInt8) : Traced Int Bool := do
  let len ← rxAt buf 0
  let bytes ← forEach (fun i : Nat => do
    let b ← rxAt buf i
    let _ ← rxAt buf 0
    pure b) (List.range (len.toNat - 2))
  let len ← rxAt buf 0
  let last ← rxAt buf (len.toNat - 2)
  pure ((bytes.map UInt8.toNat).sum % 256 == last.toNat)

def uart2GetImuAt (s : CGyroDevice) : Traced Int CGyroDevice := do
  let yaw ← fieldAt s.rxBuffer 2
  let pitch ← fieldAt s.rxBuffer 4
  let roll ← fieldAt s.rxBuffer 6
  let s' := { s with yaw := yaw / 10, pitch := pitch / 10, roll := roll / 10 }
  let temp ← raw16At s.rxBuffer 8
  if temp = versionHead then do
    let temp ← rxAt s.rxBuffer 10
    let v0 := if temp.toNat = versionF103 then 103 else if temp.toNat = versionF407 then 407 else 0
    let s' := { s' with version := update s'.version 0 v0 }
    if v0 ≠ 0 then do
      let v1 ← rxAt s.rxBuffer 11
      let v2 ← rxAt s.rxBuffer 12
      let v3 ← rxAt s.rxBuffer 13
      pure { s' with version := update (update (update s'.version 1 v1.toNat) 2 v2.toNat) 3 v3.toNat }
    else pure s'
  else pure s'

def uart2GetMotionAt (s : CGyroDevice) : Traced Int CGyroDevice := do
  let ax ← fieldAt s.rxBuffer 2
  let ay ← fieldAt s.rxBuffer 4
  let az ← fieldAt s.rxBuffer 6
  let gx ← fieldAt s.rxBuffer 8
  let gy ← fieldAt s.rxBuffer 10
  let gz ← fieldAt s.rxBuffer 12
  let offGx ← fieldAt s.rxBuffer 14
  let offGy ← fieldAt s.rxBuffer 16
  let offGz ← fieldAt s.rxBuffer 18
  pure { s with ax, ay, az, gx, gy, gz, offGx, offGy, offGz }

/-- The type is read again in each condition. -/
def routeAt (s : CGyroDevice) : Traced Int (CGyroDevice × Bool × Bool) := do
  let type ← rxAt s.rxBuffer 1
  if type = 0xA1 then do
    let s ← uart2GetImuAt s
    let s := { s with isImuReady := true }
    pure (s, s.isImuReady && s.isMotionReady, false)
  else do
    let type ← rxAt s.rxBuffer 1
    if type = 0xA2 then do
      let s ← uart2GetMotionAt s
      let s := countFreeze { s with isMotionReady := true }
      pure (s, false, decide (s.accFreezeCounter > 100 ∨ s.gyroFreezeCounter > 500))
    else do
      let type ← rxAt s.rxBuffer 1
      if type = gyroInitDataBuffer.getD 3 0 then pure (s, false, false)
      else do
        let type ← rxAt s.rxBuffer 1
        if type = 0x38 then pure (s, false, false)
        else do
          let type ← rxAt s.rxBuffer 1
          if type = 0x39 then pure ({ s with mSetLsbFlag := true }, false, false)
          else do
            let type ← rxAt s.rxBuffer 1
            if type = 0x0B then
              pure (if s.finishBan = true then { s with isAck := true, beforeCaliYawRecord := s.yaw } else s, false, false)
            else pure (s, false, false)

def uart2CommandRouteAt (s : CGyroDevice) : Traced Int (CGyroDevice × Call) :=
  if s.rcFlag &&& bRxOver ≠ 0 then do
    let s := { s with rcFlag := s.rcFlag &&& ~~~bRxOver }
    let good ← sumCheckAt s.rxBuffer
    if good = true then do
      let r ← routeAt s
      pure (r.1, ⟨s.rxBuffer, true, r.2.1, r.2.2⟩)
    else pure (s, ⟨s.rxBuffer, false, false, false⟩)
  else pure (s, ⟨s.rxBuffer, false, false, false⟩)

def putAt (s : CGyroDevice) (data : UInt8) : Traced Int CGyroDevice := touch s.rxWrIndex (put s data)

def decodeFrameAt (s : CGyroDevice) (data : UInt8) : Traced Int (CGyroDevice × Option Call) :=
  if data = 0xa5 then do
    let s ← putAt { s with rcFlag := s.rcFlag ||| bUartHead } data
    pure (clamp s, none)
  else if data = 0x5a then do
    let s ← if s.rcFlag &&& bUartHead ≠ 0 then pure { s with rxWrIndex := 0, rcFlag := s.rcFlag &&& ~~~bRxOver }
      else putAt s data
    pure (clamp { s with rcFlag := s.rcFlag &&& ~~~bUartHead }, none)
  else do
    let s ← putAt s data
    let s := { s with rcFlag := s.rcFlag &&& ~~~bUartHead }
    let len ← rxAt s.rxBuffer 0
    if s.rxWrIndex = len.toNat then do
      let r ← uart2CommandRouteAt { s with rcFlag := s.rcFlag ||| bRxOver }
      pure (clamp r.1, some r.2)
    else pure (clamp s, none)

/-! ## They are the same functions -/

@[simp] theorem rxAt_val (buf : Int → UInt8) (i : Int) : (rxAt buf i).val = buf i := rfl

@[simp] theorem sumCheckAt_val (buf : Int → UInt8) : (sumCheckAt buf).val = sumCheck buf := by
  simp only [sumCheckAt, sumCheck, val_bind, val_pure, val_forEach, rxAt_val, List.map_map]
  rfl

@[simp] theorem uart2GetImuAt_val (s : CGyroDevice) : (uart2GetImuAt s).val = uart2GetImu s := by
  simp only [uart2GetImuAt, val_bind, val_ite, val_pure]
  rfl

@[simp] theorem uart2GetMotionAt_val (s : CGyroDevice) : (uart2GetMotionAt s).val = uart2GetMotion s := rfl

@[simp] theorem routeAt_val (s : CGyroDevice) : (routeAt s).val = route s := by
  simp only [routeAt, val_bind, val_ite, val_pure]
  simp only [uart2GetImuAt_val, uart2GetMotionAt_val]
  rfl

@[simp] theorem uart2CommandRouteAt_val (s : CGyroDevice) : (uart2CommandRouteAt s).val = uart2CommandRoute s := by
  simp only [uart2CommandRouteAt, val_bind, val_ite, val_pure]
  simp only [sumCheckAt_val, routeAt_val]
  rfl

theorem decodeFrameAt_val (s : CGyroDevice) (data : UInt8) : (decodeFrameAt s data).val = decodeFrame s data := by
  unfold decodeFrameAt decodeFrame
  by_cases ha : data = 0xa5
  · rw [if_pos ha, if_pos ha]
    rfl
  by_cases hb : data = 0x5a
  · rw [if_neg ha, if_neg ha, if_pos hb, if_pos hb]
    by_cases hf : s.rcFlag &&& bUartHead ≠ 0
    · rw [if_pos hf]
      simp only [if_pos hf]
      rfl
    · rw [if_neg hf]
      simp only [if_neg hf]
      rfl
  · rw [if_neg ha, if_neg ha, if_neg hb, if_neg hb, val_bind, val_bind, val_ite, val_bind, uart2CommandRouteAt_val]
    rfl

/-! ## Where they read and write -/

/-- An index of the array. -/
def InArray (i : Int) : Prop := 0 ≤ i ∧ i < rxBufferSize

theorem rxAt_within (buf : Int → UInt8) {i : Int} (h0 : 0 ≤ i) (h : i < 50) : Within InArray (rxAt buf i) :=
  (within_touch i _).mpr ⟨h0, h⟩

theorem raw16At_within (buf : Int → UInt8) {i : Int} (h0 : 0 ≤ i) (h : i < 49) : Within InArray (raw16At buf i) := by
  simp only [raw16At, within_bind, within_pure, and_true]
  exact ⟨rxAt_within buf h0 (by omega), rxAt_within buf (by omega) (by omega)⟩

theorem fieldAt_within (buf : Int → UInt8) {i : Int} (h0 : 0 ≤ i) (h : i < 49) : Within InArray (fieldAt buf i) := by
  simp only [fieldAt, within_bind, within_pure, and_true]
  exact raw16At_within buf h0 h

theorem uart2GetMotionAt_within (s : CGyroDevice) : Within InArray (uart2GetMotionAt s) := by
  have hf : ∀ i : Int, 0 ≤ i → i < 49 → Within InArray (fieldAt s.rxBuffer i) := fun i h0 h => fieldAt_within _ h0 h
  simp only [uart2GetMotionAt, within_bind, within_pure, and_true]
  refine ⟨hf 2 ?_ ?_, hf 4 ?_ ?_, hf 6 ?_ ?_, hf 8 ?_ ?_, hf 10 ?_ ?_, hf 12 ?_ ?_, hf 14 ?_ ?_, hf 16 ?_ ?_, hf 18 ?_ ?_⟩
  all_goals decide

theorem uart2GetImuAt_within (s : CGyroDevice) : Within InArray (uart2GetImuAt s) := by
  have hf : ∀ i : Int, 0 ≤ i → i < 49 → Within InArray (fieldAt s.rxBuffer i) := fun i h0 h => fieldAt_within _ h0 h
  have hr : ∀ i : Int, 0 ≤ i → i < 50 → Within InArray (rxAt s.rxBuffer i) := fun i h0 h => rxAt_within _ h0 h
  simp only [uart2GetImuAt, within_bind]
  refine ⟨hf 2 (by decide) (by decide), hf 4 (by decide) (by decide), hf 6 (by decide) (by decide),
    raw16At_within _ (by decide) (by decide), within_ite (fun _ => ?_) fun _ => within_pure _⟩
  rw [within_bind]
  refine ⟨hr 10 (by decide) (by decide), within_ite (fun _ => ?_) fun _ => within_pure _⟩
  simp only [within_bind, within_pure, and_true]
  exact ⟨hr 11 (by decide) (by decide), hr 12 (by decide) (by decide), hr 13 (by decide) (by decide)⟩

theorem routeAt_within (s : CGyroDevice) : Within InArray (routeAt s) := by
  have htype : Within InArray (rxAt s.rxBuffer 1) := rxAt_within _ (by decide) (by decide)
  -- each condition reads the type, and only the first two branches read fields
  have hnext : ∀ {x : UInt8 → Traced Int (CGyroDevice × Bool × Bool)}, Within InArray (x (s.rxBuffer 1)) →
      Within InArray (rxAt s.rxBuffer 1 >>= x) := fun hx => (within_bind _ _).mpr ⟨htype, hx⟩
  refine hnext (within_ite (fun _ => ?_) fun _ => hnext (within_ite (fun _ => ?_) fun _ => ?_))
  · exact (within_bind _ _).mpr ⟨uart2GetImuAt_within s, within_pure _⟩
  · exact (within_bind _ _).mpr ⟨uart2GetMotionAt_within s, within_pure _⟩
  refine hnext (within_ite (fun _ => within_pure _) fun _ => hnext (within_ite (fun _ => within_pure _) fun _ => ?_))
  exact hnext (within_ite (fun _ => within_pure _) fun _ => hnext (within_ite (fun _ => within_pure _) fun _ => within_pure _))

/-- The checksum is read inside the array when the length byte is from 2 to 51. -/
theorem sumCheckAt_within (buf : Int → UInt8) :
    Within InArray (sumCheckAt buf) ↔ 2 ≤ (buf 0).toNat ∧ (buf 0).toNat ≤ 51 := by
  have h0 : Within InArray (rxAt buf 0) := rxAt_within buf (by decide) (by decide)
  have hloop : ∀ i : Nat, Within InArray (do
      let b ← rxAt buf i
      let _ ← rxAt buf 0
      pure b) ↔ i < 50 := by
    intro i
    simp only [within_bind, within_pure, and_true, rxAt, within_touch, InArray, rxBufferSize]
    omega
  simp only [sumCheckAt, within_bind, within_pure, within_forEach, hloop, h0, rxAt_val, true_and, and_true,
    List.mem_range]
  simp only [rxAt, within_touch, InArray, rxBufferSize]
  constructor
  · intro h
    omega
  · intro h
    exact ⟨fun i hi => by omega, by omega⟩

/-- A complete frame: all of it is read in the array if its checksum is. -/
theorem uart2CommandRouteAt_within {s : CGyroDevice} (h : s.rcFlag &&& bRxOver ≠ 0) :
    Within InArray (uart2CommandRouteAt s) ↔ Within InArray (sumCheckAt s.rxBuffer) := by
  unfold uart2CommandRouteAt
  rw [if_pos h, within_bind]
  refine and_iff_left ?_
  exact within_ite (fun _ => (within_bind _ _).mpr ⟨routeAt_within _, within_pure _⟩) fun _ => within_pure _

theorem putAt_within {s : CGyroDevice} (hi : s.rxWrIndex ≤ 49) (data : UInt8) : Within InArray (putAt s data) := by
  refine (within_touch _ _).mpr ⟨Int.natCast_nonneg _, ?_⟩
  show (s.rxWrIndex : Int) < (50 : Nat)
  omega

/-- The only byte that leads out of the array is an 01 at its start. -/
theorem decodeFrameAt_within {s : CGyroDevice} (hi : s.rxWrIndex ≤ 49) (data : UInt8) :
    Within InArray (decodeFrameAt s data) ↔ ¬ (data = 1 ∧ s.rxWrIndex = 0) := by
  unfold decodeFrameAt
  by_cases ha : data = 0xa5
  · rw [if_pos ha, within_bind]
    refine iff_of_true ⟨putAt_within hi data, within_pure _⟩ fun h => ?_
    rw [ha] at h
    exact absurd h.1 (by decide)
  by_cases hb : data = 0x5a
  · rw [if_neg ha, if_pos hb]
    refine iff_of_true (within_ite (fun _ => ?_) fun _ => ?_) fun h => ?_
    · exact within_pure _
    · exact (within_bind _ _).mpr ⟨putAt_within hi data, within_pure _⟩
    · rw [hb] at h
      exact absurd h.1 (by decide)
  have h0 : ∀ buf, Within InArray (rxAt buf 0) := fun buf => rxAt_within buf (by decide) (by decide)
  rw [if_neg ha, if_neg hb, within_bind, within_bind, and_iff_right (putAt_within hi data), and_iff_right (h0 _)]
  have hwr : (put s data).rxWrIndex = s.rxWrIndex + 1 := Nat.mod_eq_of_lt (by omega)
  have hfirst : s.rxWrIndex = 0 → ((put s data).rxBuffer 0).toNat = data.toNat := by
    intro h
    have hzero : (s.rxWrIndex : Int) = 0 := by omega
    show (update s.rxBuffer s.rxWrIndex data 0).toNat = data.toNat
    rw [hzero, update_self]
  have hone : data = 1 ↔ data.toNat = 1 := UInt8.toNat_inj.symm
  show Within InArray (if (put s data).rxWrIndex = ((put s data).rxBuffer 0).toNat then _ else _) ↔ _
  by_cases hfull : (put s data).rxWrIndex = ((put s data).rxBuffer 0).toNat
  · have hover : ((s.rcFlag &&& ~~~bUartHead) ||| bRxOver) &&& bRxOver ≠ 0 := by rw [flag_set]; decide
    rw [if_pos hfull, within_bind, and_iff_left (within_pure _), uart2CommandRouteAt_within hover]
    show Within InArray (sumCheckAt (put s data).rxBuffer) ↔ _
    rw [sumCheckAt_within, ← hfull, hwr, hone]
    omega
  · rw [if_neg hfull]
    refine iff_of_true (within_pure _) fun h => hfull ?_
    rw [hwr, hfirst h.2, hone.mp h.1, h.2]

/-! ## Streams -/

/-- The byte makes no access outside the array and leaves the index in it. -/
def InBuffer (s : CGyroDevice) (data : UInt8) : Prop :=
  (∀ i ∈ (decodeFrameAt s data).trace, 0 ≤ i ∧ i ≤ 49) ∧ (decodeFrameAt s data).val.1.rxWrIndex ≤ 49

/-- The byte is not a length byte of 1. -/
def NotLengthOne (s : CGyroDevice) (data : UInt8) : Prop := ¬ (data = 1 ∧ s.rxWrIndex = 0)

theorem decodeFrame_index {s : CGyroDevice} (hi : s.rxWrIndex ≤ 49) (data : UInt8) :
    (decodeFrame s data).1.rxWrIndex ≤ 49 := by
  by_cases hb : data = 0x5a ∧ head s
  · rw [hb.1, (decode_header s hb.2).2.1]
    omega
  · rw [(decode_store s hi data hb).2.1]
    omega

theorem inBuffer_step {s : CGyroDevice} (hi : s.rxWrIndex ≤ 49) (data : UInt8) : InBuffer s data ↔ NotLengthOne s data := by
  have hindex : (decodeFrameAt s data).val.1.rxWrIndex ≤ 49 := by
    rw [decodeFrameAt_val]
    exact decodeFrame_index hi data
  have harray : (∀ i ∈ (decodeFrameAt s data).trace, 0 ≤ i ∧ i ≤ 49) ↔ Within InArray (decodeFrameAt s data) := by
    refine forall₂_congr fun i _ => ?_
    show 0 ≤ i ∧ i ≤ 49 ↔ 0 ≤ i ∧ i < (50 : Nat)
    omega
  unfold InBuffer NotLengthOne
  rw [harray, decodeFrameAt_within hi, and_iff_left hindex]

theorem inBuffer_iff (s : CGyroDevice) (hs : s.rxWrIndex ≤ 49) (stream : List UInt8) :
    Along (fun s b => (decodeFrame s b).1) InBuffer s stream ↔
      Along (fun s b => (decodeFrame s b).1) NotLengthOne s stream :=
  along_iff_of_inv (I := fun s : CGyroDevice => s.rxWrIndex ≤ 49) (fun _ b hi _ => decodeFrame_index hi b)
    (fun _ b hi => inBuffer_step hi b) stream s hs

/-- A frame of three bytes, from the end of the buffer. -/
theorem inBuffer_short_frame :
    Along (fun s b => (decodeFrame s b).1) InBuffer { (default : CGyroDevice) with rxWrIndex := 49 }
      [0xa5, 0x5a, 3, 3, 0xaa] :=
  (inBuffer_iff { (default : CGyroDevice) with rxWrIndex := 49 } (by decide) [0xa5, 0x5a, 3, 3, 0xaa]).mpr
    (by simp [Along, NotLengthOne])

/-- The length byte 1: `Sum_check` reads `rx_buffer[-1]`. -/
theorem length_one_reads_below :
    ¬ Along (fun s b => (decodeFrame s b).1) InBuffer (powerUp default) [0xa5, 0x5a, 1] := by
  intro h
  have hread := h.2.2.1.1 (-1) (by decide)
  omega

end SeerDIOBoard.Gyro.Receiver
