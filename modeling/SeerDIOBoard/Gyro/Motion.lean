/-
  SeerDIOBoard.Gyro.Motion — what a motion frame (type A2) leaves in the gyro's fields.

  Nine values go out as sign bit and 15-bit magnitude, the high byte first. Nothing is
  escaped, so two neighbouring bytes of values can be A5 5A, which the receiver takes for
  the header of the next frame, wherever it stands: the frame is cut there
  (`pair_cuts_motion`). Without such a pair the nine values arrive, from every state of
  the receiver (`motion_transparent`).
-/

import Mathlib.Data.Nat.Bitwise
import SeerDIOBoard.Gyro.Frames

namespace SeerDIOBoard.Gyro.Receiver

open Function (update)
open Lib.Machine
open Lib.Framing

/-! ## The state around a call -/

/-- The receiver with another buffer, index and flags. -/
def CGyroDevice.withRx (s : CGyroDevice) (m : Int → UInt8) (n : Nat) (f : UInt8) : CGyroDevice :=
  { s with rxBuffer := m, rxWrIndex := n, rcFlag := f }

/-- Only the buffer, the index and the flags have changed. -/
def Quiet (s s' : CGyroDevice) : Prop := ∃ m n f, s' = s.withRx m n f

theorem Quiet.refl (s : CGyroDevice) : Quiet s s := ⟨s.rxBuffer, s.rxWrIndex, s.rcFlag, rfl⟩

theorem Quiet.trans {s s' s'' : CGyroDevice} (h : Quiet s s') (h' : Quiet s' s'') : Quiet s s'' := by
  obtain ⟨m, n, f, rfl⟩ := h
  obtain ⟨m', n', f', rfl⟩ := h'
  exact ⟨m', n', f', rfl⟩

theorem Quiet.put (s : CGyroDevice) (b : UInt8) : Quiet s (put s b) :=
  ⟨update s.rxBuffer s.rxWrIndex b, (s.rxWrIndex + 1) % 256, s.rcFlag, rfl⟩

theorem Quiet.rcFlag (s : CGyroDevice) (f : UInt8) : Quiet s { s with rcFlag := f } := ⟨s.rxBuffer, s.rxWrIndex, f, rfl⟩

theorem Quiet.clamp (s : CGyroDevice) : Quiet s (clamp s) := by
  unfold Receiver.clamp
  split
  · exact ⟨s.rxBuffer, s.rxWrIndex - 1, s.rcFlag, rfl⟩
  · exact Quiet.refl s

/-- A byte without a call is quiet. -/
theorem decode_quiet {s : CGyroDevice} {b : UInt8} (h : (decodeFrame s b).2 = none) : Quiet s (decodeFrame s b).1 := by
  unfold decodeFrame at h ⊢
  by_cases ha : b = 0xa5
  · rw [if_pos ha]
    exact ((Quiet.rcFlag s _).trans (Quiet.put _ b)).trans (Quiet.clamp _)
  by_cases hb : b = 0x5a
  · rw [if_neg ha, if_pos hb]
    dsimp only
    split
    · exact Quiet.trans ⟨s.rxBuffer, 0, _, rfl⟩ (Quiet.clamp _)
    · exact ((Quiet.put s b).trans (Quiet.rcFlag _ _)).trans (Quiet.clamp _)
  · rw [if_neg ha, if_neg hb] at h ⊢
    dsimp only at h ⊢
    split at h
    · cases h
    case isFalse hL =>
      rw [if_neg hL]
      exact ((Quiet.put s b).trans (Quiet.rcFlag _ _)).trans (Quiet.clamp _)

theorem header_quiet (s : CGyroDevice) : Quiet s (feed s [0xa5, 0x5a]) := by
  have h1 : Quiet s (decodeFrame s 0xa5).1 := decode_quiet rfl
  have h2 : Quiet (decodeFrame s 0xa5).1 (decodeFrame (decodeFrame s 0xa5).1 0x5a).1 := decode_quiet rfl
  exact h1.trans h2

theorem feed_quiet (q : List UInt8) {s : CGyroDevice}
    (h : ∀ p y r, q = p ++ y :: r → (decodeFrame (feed s p) y).2 = none) : Quiet s (feed s q) := by
  induction q generalizing s with
  | nil => exact Quiet.refl s
  | cons b q ih =>
    refine (decode_quiet (h [] b q rfl)).trans (ih ?_)
    intro p y r he
    exact h (b :: p) y r (by rw [he]; rfl)

/-- The byte that completes a frame with a good checksum hands it to `route`. -/
theorem decode_complete {s : CGyroDevice} (hi : s.rxWrIndex ≤ 49) {b : UInt8} (ha : b ≠ 0xa5) (hb : b ≠ 0x5a)
    (hL : s.rxWrIndex + 1 = (update s.rxBuffer s.rxWrIndex b 0).toNat)
    (hsum : sumCheck (update s.rxBuffer s.rxWrIndex b) = true) :
    ∃ n f, Quiet (route (s.withRx (update s.rxBuffer s.rxWrIndex b) n f)).1 (decodeFrame s b).1 := by
  have hidx : (s.rxWrIndex + 1) % 256 = s.rxWrIndex + 1 := Nat.mod_eq_of_lt (by omega)
  have hover : ((s.rcFlag &&& ~~~bUartHead) ||| bRxOver) &&& bRxOver ≠ 0 := by rw [flag_set]; decide
  unfold decodeFrame
  rw [if_neg ha, if_neg hb]
  simp only [put, hidx, if_pos hL, uart2CommandRoute, if_pos hover, hsum, if_true]
  exact ⟨_, _, Quiet.clamp _⟩

/-- With a bad checksum it is quiet too. -/
theorem decode_rejected {s : CGyroDevice} (hi : s.rxWrIndex ≤ 49) {b : UInt8} (ha : b ≠ 0xa5) (hb : b ≠ 0x5a)
    (hL : s.rxWrIndex + 1 = (update s.rxBuffer s.rxWrIndex b 0).toNat)
    (hsum : sumCheck (update s.rxBuffer s.rxWrIndex b) = false) : Quiet s (decodeFrame s b).1 := by
  have hidx : (s.rxWrIndex + 1) % 256 = s.rxWrIndex + 1 := Nat.mod_eq_of_lt (by omega)
  have hover : ((s.rcFlag &&& ~~~bUartHead) ||| bRxOver) &&& bRxOver ≠ 0 := by rw [flag_set]; decide
  unfold decodeFrame
  rw [if_neg ha, if_neg hb]
  simp only [put, hidx, if_pos hL, uart2CommandRoute, if_pos hover, hsum, if_neg Bool.false_ne_true]
  exact Quiet.trans ⟨update s.rxBuffer s.rxWrIndex b, s.rxWrIndex + 1, _, rfl⟩ (Quiet.clamp _)

/-! ## A frame behind its header -/

/-- A frame as it is sent: its length in the first byte, the checksum in the last but one. -/
structure IsFrame (body : List UInt8) : Prop where
  three_le : 3 ≤ body.length
  le_fifty : body.length ≤ 50
  lengthByte : (body.getD 0 0).toNat = body.length
  checksum : (body.getD (body.length - 2) 0).toNat = ((body.take (body.length - 2)).map UInt8.toNat).sum % 256

/-- Nothing happens until the last byte, which routes the frame. -/
theorem feed_frame {s : CGyroDevice} (hs : s.rxWrIndex ≤ 49) {q : List UInt8} {x : UInt8} (hframe : IsFrame (q ++ [x]))
    (ha : x ≠ 0xa5) (hb : x ≠ 0x5a) (hpair : ¬ [0xa5, 0x5a] <:+: q ++ [x]) :
    ∃ m n f, Quiet (route (s.withRx m n f)).1 (feed s (0xa5 :: 0x5a :: (q ++ [x]))) ∧
      m = update (feed (feed s [0xa5, 0x5a]) q).rxBuffer q.length x ∧
      ∀ i, i < (q ++ [x]).length → m i = (q ++ [x]).getD i 0 := by
  have hlen := hframe.lengthByte
  have h50 := hframe.le_fifty
  have h3 := hframe.three_le
  have hsim := sim_cut s hs hpair (List.prefix_append q [x])
  generalize ht : feed (feed s [0xa5, 0x5a]) q = t at hsim
  have hquiet : Quiet s t := by
    rw [← ht]
    exact (header_quiet s).trans (feed_quiet q (cut_quiet s hs h50 hlen hpair))
  have hfull : Full (q ++ [x]) := by unfold Full; rw [hlen]; omega
  obtain ⟨c, hc⟩ := (call_some hsim x).mpr ⟨ha, hb, hfull⟩
  obtain ⟨-, -, hL, hbuf, hacc⟩ := decode_call t (sim_index_le hsim) x c hc
  obtain ⟨hgood, -, hbytes⟩ := call_spec hsim hc
  have hsum : sumCheck (update t.rxBuffer t.rxWrIndex x) = true := by
    rw [← hbuf, ← hacc, hgood]
    exact (sumCheck_memOf _ _ (by omega) hlen).mpr hframe.checksum
  have hindex : t.rxWrIndex = q.length := by
    have hidx : t.rxWrIndex = min q.length 49 := hsim.index
    rw [List.length_append, List.length_singleton] at h50
    omega
  obtain ⟨n, f, hlast⟩ := decode_complete (sim_index_le hsim) ha hb hL hsum
  obtain ⟨m₀, n₀, f₀, hstate⟩ := hquiet
  refine ⟨update t.rxBuffer t.rxWrIndex x, n, f, ?_, by rw [hindex], ?_⟩
  · have hsplit : feed s (0xa5 :: 0x5a :: (q ++ [x])) = (decodeFrame t x).1 := by
      rw [← ht]
      exact feed_snoc s (0xa5 :: 0x5a :: q) x
    have hroute : s.withRx (update t.rxBuffer t.rxWrIndex x) n f = t.withRx (update t.rxBuffer t.rxWrIndex x) n f := by
      rw [hstate]
      rfl
    rw [hsplit, hroute]
    exact hlast
  · intro i hi
    rw [← hbuf]
    exact hbytes h50 i hi

/-! ## Sign and magnitude -/

/-- A value between -32767 and 32767 as it is sent. -/
def fieldBytes (v : Int) : List UInt8 :=
  [UInt8.ofNat (v.natAbs / 256 + if v < 0 then 128 else 0), UInt8.ofNat (v.natAbs % 256)]

theorem signMag_eq {t : Nat} (ht : t < 65536) :
    signMag t = if 32768 ≤ t then -((t - 32768 : Nat) : Int) else (t : Int) := by
  have hmag : t &&& 0x7fff = t % 32768 := Nat.and_two_pow_sub_one_eq_mod t 15
  have hsign : t &&& 0x8000 ≠ 0 ↔ 32768 ≤ t := by
    have hand : t &&& 0x8000 = (t.testBit 15).toNat * 32768 := Nat.and_two_pow t 15
    rw [hand, Nat.testBit_eq_decide_div_mod_eq]
    by_cases h : 32768 ≤ t
    · have hbit : t / 2 ^ 15 % 2 = 1 := by omega
      rw [hbit]
      exact iff_of_true (by decide) h
    · have hbit : t / 2 ^ 15 % 2 = 0 := by omega
      rw [hbit]
      exact iff_of_false (by decide) h
  unfold signMag
  simp only [hsign, hmag]
  split
  · omega
  · omega

theorem raw16_fieldBytes {m : Int → UInt8} {i : Int} {v : Int} (hv : v.natAbs ≤ 32767)
    (h : [m i, m (i + 1)] = fieldBytes v) : raw16 m i = v.natAbs + if v < 0 then 32768 else 0 := by
  obtain ⟨hhi, htail⟩ := List.cons.inj h
  obtain ⟨hlo, -⟩ := List.cons.inj htail
  unfold raw16
  rw [hhi, hlo, UInt8.toNat_ofNat', UInt8.toNat_ofNat']
  split
  · omega
  · omega

theorem field_fieldBytes {m : Int → UInt8} {i : Int} {v : Int} (hv : v.natAbs ≤ 32767)
    (h : [m i, m (i + 1)] = fieldBytes v) : field m i = v := by
  unfold field
  rw [raw16_fieldBytes hv h, signMag_eq (by split <;> omega)]
  split
  · split
    · omega
    · omega
  · split
    · omega
    · omega

/-! ## Motion frames -/

structure Motion where
  ax : Int
  ay : Int
  az : Int
  gx : Int
  gy : Int
  gz : Int
  offGx : Int
  offGy : Int
  offGz : Int
  deriving DecidableEq, Repr

def Motion.values (v : Motion) : List Int := [v.ax, v.ay, v.az, v.gx, v.gy, v.gz, v.offGx, v.offGy, v.offGz]

/-- The nine fields of the receiver. -/
def motionOf (s : CGyroDevice) : Motion :=
  ⟨s.ax, s.ay, s.az, s.gx, s.gy, s.gz, s.offGx, s.offGy, s.offGz⟩

/-- Length and type, and the values. -/
def Motion.bytes (v : Motion) : List UInt8 := [22, 0xa2] ++ v.values.flatMap fieldBytes

def Motion.frame (v : Motion) : List UInt8 := v.bytes ++ [UInt8.ofNat (v.bytes.map UInt8.toNat).sum, 0xaa]

theorem Motion.isFrame (v : Motion) : IsFrame v.frame := by
  have hlen : v.frame.length = 22 := rfl
  have htake : v.frame.take 20 = v.bytes := rfl
  refine ⟨by rw [hlen]; decide, by rw [hlen]; decide, rfl, ?_⟩
  rw [hlen, htake]
  show (UInt8.ofNat (v.bytes.map UInt8.toNat).sum).toNat = _
  exact UInt8.toNat_ofNat'

/-- A field of a frame in the buffer. -/
theorem Motion.field_eq {v : Motion} (hv : ∀ x ∈ v.values, x.natAbs ≤ 32767) {m : Int → UInt8}
    (hm : ∀ i, i < 22 → m (i : Nat) = v.frame.getD i 0) {k : Nat} (hk : k < 9) :
    field m ((2 + 2 * k : Nat) : Int) = v.values.getD k 0 := by
  have hmem : v.values.getD k 0 ∈ v.values := by
    rw [List.getD_eq_getElem _ _ hk]
    exact List.getElem_mem _
  apply field_fieldBytes (hv _ hmem)
  have hlo : m (((2 + 2 * k : Nat) : Int) + 1) = v.frame.getD (3 + 2 * k) 0 := by
    rw [show ((2 + 2 * k : Nat) : Int) + 1 = ((3 + 2 * k : Nat) : Int) by omega]
    exact hm _ (by omega)
  rw [hm _ (by omega), hlo]
  obtain rfl | rfl | rfl | rfl | rfl | rfl | rfl | rfl | rfl :
    k = 0 ∨ k = 1 ∨ k = 2 ∨ k = 3 ∨ k = 4 ∨ k = 5 ∨ k = 6 ∨ k = 7 ∨ k = 8 := by omega
  all_goals rfl

theorem motion_transparent (s : CGyroDevice) (hs : s.rxWrIndex ≤ 49) (v : Motion)
    (hv : ∀ x ∈ v.values, -32767 ≤ x ∧ x ≤ 32767) (hpair : ¬ [0xa5, 0x5a] <:+: v.frame) :
    motionOf (feed s (0xa5 :: 0x5a :: v.frame)) = v := by
  obtain ⟨m, n, f, hroute, -, hm⟩ := feed_frame (q := v.bytes ++ [UInt8.ofNat (v.bytes.map UInt8.toNat).sum]) (x := 0xaa)
    hs (by rw [List.append_assoc]; exact v.isFrame) (by decide) (by decide) (by rw [List.append_assoc]; exact hpair)
  have hm' : ∀ i, i < 22 → m (i : Nat) = v.frame.getD i 0 := by
    intro i hi
    rw [hm i hi, List.append_assoc]
    rfl
  have hv' : ∀ x ∈ v.values, x.natAbs ≤ 32767 := by
    intro x hx
    have := hv x hx
    omega
  have htype : m 1 = 0xa2 := hm' 1 (by decide)
  have hend : motionOf (feed s (0xa5 :: 0x5a :: v.frame)) = motionOf (uart2GetMotion (s.withRx m n f)) := by
    obtain ⟨m', n', f', hq⟩ := hroute
    have hfeed : feed s (0xa5 :: 0x5a :: v.frame) = (route (s.withRx m n f)).1.withRx m' n' f' := by
      rw [← hq, List.append_assoc]
      rfl
    rw [hfeed]
    unfold route
    rw [if_neg (by show m 1 ≠ 0xa1; rw [htype]; decide), if_pos (by show m 1 = 0xa2; exact htype)]
    rfl
  have hf : ∀ k, k < 9 → field m ((2 + 2 * k : Nat) : Int) = v.values.getD k 0 := fun k hk => Motion.field_eq hv' hm' hk
  rw [hend]
  show Motion.mk (field m 2) (field m 4) (field m 6) (field m 8) (field m 10) (field m 12) (field m 14) (field m 16)
    (field m 18) = v
  have h0 : field m 2 = v.ax := hf 0 (by decide)
  have h1 : field m 4 = v.ay := hf 1 (by decide)
  have h2 : field m 6 = v.az := hf 2 (by decide)
  have h3 : field m 8 = v.gx := hf 3 (by decide)
  have h4 : field m 10 = v.gy := hf 4 (by decide)
  have h5 : field m 12 = v.gz := hf 5 (by decide)
  have h6 : field m 14 = v.offGx := hf 6 (by decide)
  have h7 : field m 16 = v.offGy := hf 7 (by decide)
  have h8 : field m 18 = v.offGz := hf 8 (by decide)
  rw [h0, h1, h2, h3, h4, h5, h6, h7, h8]

/-- At rest, one g on the z axis. -/
def resting : Motion := ⟨12, -7, 16384, 3, -2, 1, 0, 0, 0⟩

theorem motion_transparent_resting :
    motionOf (feed { (default : CGyroDevice) with rxWrIndex := 17, rcFlag := 0xC0 } (0xa5 :: 0x5a :: resting.frame)) =
      resting :=
  motion_transparent { (default : CGyroDevice) with rxWrIndex := 17, rcFlag := 0xC0 } (by decide) resting (by decide)
    (by decide)

/-- An acceleration of -9562 is sent as A5 5A. -/
def braking : Motion := ⟨-9562, -7, 16384, 3, -2, 1, 0, 0, 0⟩

set_option maxRecDepth 4000 in
theorem pair_cuts_motion : (∀ x ∈ braking.values, -32767 ≤ x ∧ x ≤ 32767) ∧
    motionOf (feed default (0xa5 :: 0x5a :: braking.frame)) ≠ braking := by
  refine ⟨by decide, ?_⟩
  intro h
  have hax : (0 : Int) = -9562 := congrArg Motion.ax h
  exact absurd hax (by decide)

end SeerDIOBoard.Gyro.Receiver
