/-
  SeerDIOBoard.Gyro.Stale — whether the sensor fields come from the frame alone.

  The extractors read at fixed offsets (a motion frame up to 19, an angle frame up to 9
  and, behind a version head, up to 13), whatever the frame's length is. Behind a shorter
  frame the buffer holds what earlier ones left, and that reaches the fields.

  `Fresh` is what the receiver's buffer holds from one header on, inner headers included,
  and `Decides` says that a frame's call finds everything it reads in there, or reads
  enough to stop. Two receivers with different buffers are in the same state after a frame
  all of whose calls decide (`same_of_covered`); when no A5 5A is inside the frame, only
  then (`same_iff_covered`).
-/

import SeerDIOBoard.Gyro.Motion

namespace SeerDIOBoard.Gyro.Receiver

open Function (update update_self update_of_ne)
open Lib.Machine
open Lib.Framing

/-! ## The bytes since a header -/

structure Fresh where
  known : List UInt8
  index : Nat
  half : Bool
  deriving DecidableEq, Repr

namespace Fresh

def header : Fresh := ⟨[], 0, false⟩

/-- The buffer from its start on, with `b` at the write index. -/
def store (g : Fresh) (b : UInt8) : List UInt8 :=
  if g.index < g.known.length then g.known.set g.index b else g.known ++ [b]

/-- An inner header takes the index back, and what was written stays. -/
def next (g : Fresh) (b : UInt8) : Fresh :=
  if b = 0x5a ∧ g.half = true then ⟨g.known, 0, false⟩ else ⟨g.store b, min (g.index + 1) 49, b = 0xa5⟩

/-- `b` completes a frame, and its checksum can be right. -/
def Completes (g : Fresh) (b : UInt8) : Prop :=
  b ≠ 0xa5 ∧ b ≠ 0x5a ∧ g.index + 1 = ((g.store b).getD 0 0).toNat ∧ ∃ w, sumCheck (memOf w (g.store b)) = true

structure Wf (g : Fresh) : Prop where
  index_le : g.index ≤ g.known.length
  index_lt : g.index ≤ 49

theorem wf_header : header.Wf := ⟨Nat.le_refl 0, by decide⟩

theorem length_store {g : Fresh} (h : g.Wf) (b : UInt8) : g.index + 1 ≤ (g.store b).length := by
  have hle := h.index_le
  unfold store
  split
  · rw [List.length_set]
    omega
  · rw [List.length_append, List.length_singleton]
    omega

theorem wf_next {g : Fresh} (h : g.Wf) (b : UInt8) : (g.next b).Wf := by
  have hlen := length_store h b
  unfold next
  split
  · exact ⟨Nat.zero_le _, Nat.zero_le _⟩
  · refine ⟨?_, ?_⟩
    · show min (g.index + 1) 49 ≤ (g.store b).length
      omega
    · show min (g.index + 1) 49 ≤ 49
      omega

/-- What is stored is what an update of memory holds. -/
theorem update_store {g : Fresh} (h : g.Wf) (b : UInt8) {m : Int → UInt8}
    (hm : ∀ i, i < g.known.length → m (i : Nat) = g.known.getD i 0) {i : Nat} (hi : i < (g.store b).length) :
    update m (g.index : Nat) b i = (g.store b).getD i 0 := by
  have hle := h.index_le
  unfold store at hi ⊢
  by_cases heq : i = g.index
  · rw [heq, update_self]
    split
    case isTrue hlt => rw [List.getD_eq_getElem _ _ (by rw [List.length_set]; exact hlt), List.getElem_set_self]
    case isFalse hge =>
      have hend : g.index = g.known.length := by omega
      rw [hend, List.getD_append_right _ _ _ _ (Nat.le_refl _), Nat.sub_self]
      rfl
  · rw [update_of_ne (by omega)]
    split at hi
    case isTrue hlt =>
      rw [List.length_set] at hi
      rw [if_pos hlt, hm i hi, List.getD_eq_getElem _ _ hi, List.getD_eq_getElem _ _ (by rw [List.length_set]; exact hi),
        List.getElem_set_ne (Ne.symm heq)]
    case isFalse hge =>
      rw [List.length_append, List.length_singleton] at hi
      rw [if_neg hge, hm i (by omega), List.getD_append _ _ _ _ (by omega)]

end Fresh

/-- The receiver's buffer holds what has been received since the header. -/
structure Knows (g : Fresh) (s : CGyroDevice) : Prop where
  wf : g.Wf
  index : s.rxWrIndex = g.index
  half : head s ↔ g.half = true
  bytes : ∀ i, i < g.known.length → s.rxBuffer (i : Nat) = g.known.getD i 0

theorem Knows.index_le {g : Fresh} {s : CGyroDevice} (h : Knows g s) : s.rxWrIndex ≤ 49 := by
  rw [h.index]
  exact h.wf.index_lt

theorem knows_header {s : CGyroDevice} (hs : s.rxWrIndex ≤ 49) : Knows Fresh.header (feed s [0xa5, 0x5a]) := by
  have hsim := sim_header s hs
  refine ⟨Fresh.wf_header, hsim.index, hsim.half, ?_⟩
  intro i hi
  exact absurd hi (Nat.not_lt_zero i)

theorem knows_next {g : Fresh} {s : CGyroDevice} (h : Knows g s) (b : UInt8) :
    Knows (g.next b) (decodeFrame s b).1 := by
  have hwf := Fresh.wf_next h.wf b
  have hi := h.index_le
  by_cases hb : b = 0x5a ∧ head s
  · obtain ⟨h1, h2, h3, -⟩ := decode_header s hb.2
    rw [← hb.1] at h1 h2 h3
    have hnext : g.next b = ⟨g.known, 0, false⟩ := if_pos ⟨hb.1, h.half.mp hb.2⟩
    rw [hnext] at hwf ⊢
    refine ⟨hwf, h2, by simpa using h3, ?_⟩
    intro i hi
    rw [h1]
    exact h.bytes i hi
  · obtain ⟨h1, h2, h3⟩ := decode_store s hi b hb
    have hnext : g.next b = ⟨g.store b, min (g.index + 1) 49, b = 0xa5⟩ := if_neg fun hn => hb ⟨hn.1, h.half.mpr hn.2⟩
    rw [hnext] at hwf ⊢
    refine ⟨hwf, by rw [h2, h.index], by simpa using h3, ?_⟩
    intro i hi
    rw [h1, h.index]
    exact Fresh.update_store h.wf b h.bytes hi

/-! ## What a call reads -/

/-- The receiver without its buffer, index and flags. -/
def core (s : CGyroDevice) : CGyroDevice := s.withRx (fun _ => 0) 0 0

theorem Quiet.core_eq {s s' : CGyroDevice} (h : Quiet s s') : core s' = core s := by
  obtain ⟨m, n, f, rfl⟩ := h
  rfl

/-- A state is its core with a buffer, an index and flags. -/
theorem withRx_core (s : CGyroDevice) (m : Int → UInt8) (n : Nat) (f : UInt8) : (core s).withRx m n f = s.withRx m n f := rfl

/-- The angles, and as much of the version as decides what is stored of it. -/
def DecidesImu (l : List UInt8) : Prop :=
  8 < l.length ∧ (l.getD 8 0 = 0xa5 → 9 < l.length ∧ (l.getD 9 0 = 0xa5 → 10 < l.length ∧
    ((l.getD 10 0).toNat = versionF103 ∨ (l.getD 10 0).toNat = versionF407 → 13 < l.length)))

/-- The known bytes have everything in them that `UART2_CommandRoute` goes by. -/
def Decides (l : List UInt8) : Prop :=
  1 < l.length ∧ (l.getD 1 0 = 0xa1 → DecidesImu l) ∧ (l.getD 1 0 = 0xa2 → 19 < l.length)

instance (l : List UInt8) : Decidable (DecidesImu l) := inferInstanceAs (Decidable (_ ∧ _))

instance (l : List UInt8) : Decidable (Decides l) := inferInstanceAs (Decidable (_ ∧ _))

/-- Memory that starts with the bytes. -/
def Holds (m : Int → UInt8) (l : List UInt8) : Prop := ∀ i, i < l.length → m (i : Nat) = l.getD i 0

theorem Holds.congr {m m' : Int → UInt8} {l : List UInt8} (h : Holds m l) (h' : Holds m' l) {i : Nat} (hi : i < l.length) :
    m (i : Nat) = m' (i : Nat) := (h i hi).trans (h' i hi).symm

theorem field_congr {m m' : Int → UInt8} {l : List UInt8} (h : Holds m l) (h' : Holds m' l) (i : Nat)
    (hi : i + 1 < l.length) : field m (i : Nat) = field m' (i : Nat) := by
  have hlo : m ((i : Nat) + 1) = m' ((i : Nat) + 1) := h.congr h' (i := i + 1) hi
  unfold field raw16
  rw [h.congr h' (Nat.lt_of_succ_lt hi), hlo]

theorem raw16_eq_versionHead (m : Int → UInt8) (i : Int) : raw16 m i = versionHead ↔ m i = 0xa5 ∧ m (i + 1) = 0xa5 := by
  have h1 := (m i).toNat_lt
  have h2 := (m (i + 1)).toNat_lt
  have hhi : m i = 0xa5 ↔ (m i).toNat = 165 := UInt8.toNat_inj.symm
  have hlo : m (i + 1) = 0xa5 ↔ (m (i + 1)).toNat = 165 := UInt8.toNat_inj.symm
  rw [hhi, hlo]
  unfold raw16 versionHead
  omega

/-- `version[0]` for what byte 10 says. -/
def boardOf (temp : Nat) : Nat := if temp = versionF103 then 103 else if temp = versionF407 then 407 else 0

/-- `version` after `UART2_Get_IMU`. -/
def versionAfter (m : Int → UInt8) (version : Nat → Nat) : Nat → Nat :=
  if raw16 m 8 = versionHead then
    if boardOf (m 10).toNat ≠ 0 then
      update (update (update (update version 0 (boardOf (m 10).toNat)) 1 (m 11).toNat) 2 (m 12).toNat) 3 (m 13).toNat
    else update version 0 (boardOf (m 10).toNat)
  else version

theorem uart2GetImu_eq (s : CGyroDevice) :
    uart2GetImu s =
      { s with
        yaw := field s.rxBuffer 2 / 10, pitch := field s.rxBuffer 4 / 10, roll := field s.rxBuffer 6 / 10
        version := versionAfter s.rxBuffer s.version } := by
  unfold uart2GetImu versionAfter
  by_cases hv : raw16 s.rxBuffer 8 = versionHead
  · simp only [if_pos hv]
    by_cases hb : boardOf (s.rxBuffer 10).toNat ≠ 0
    · rw [if_pos hb]
      exact if_pos hb
    · rw [if_neg hb]
      exact if_neg hb
  · simp only [if_neg hv]

theorem boardOf_ne_zero {temp : Nat} : boardOf temp ≠ 0 ↔ temp = versionF103 ∨ temp = versionF407 := by
  unfold boardOf
  by_cases h : temp = versionF103
  · rw [if_pos h]
    exact iff_of_true (by decide) (.inl h)
  by_cases h' : temp = versionF407
  · rw [if_neg h, if_pos h']
    exact iff_of_true (by decide) (.inr h')
  · rw [if_neg h, if_neg h']
    exact iff_of_false (fun hne => hne rfl) fun hor => hor.elim h h'

theorem versionAfter_congr {m m' : Int → UInt8} {l : List UInt8} (h : Holds m l) (h' : Holds m' l) (hd : DecidesImu l)
    (version : Nat → Nat) : versionAfter m version = versionAfter m' version := by
  obtain ⟨h8, hversion⟩ := hd
  have hm8 : m 8 = l.getD 8 0 := h 8 h8
  have hm8' : m' 8 = l.getD 8 0 := h' 8 h8
  unfold versionAfter
  simp only [raw16_eq_versionHead]
  by_cases hv8 : l.getD 8 0 = 0xa5
  swap
  · rw [if_neg fun hv => hv8 (hm8.symm.trans hv.1), if_neg fun hv => hv8 (hm8'.symm.trans hv.1)]
  obtain ⟨h9, hversion⟩ := hversion hv8
  have hm9 : m (8 + 1) = l.getD 9 0 := h 9 h9
  have hm9' : m' (8 + 1) = l.getD 9 0 := h' 9 h9
  by_cases hv9 : l.getD 9 0 = 0xa5
  swap
  · rw [if_neg fun hv => hv9 (hm9.symm.trans hv.2), if_neg fun hv => hv9 (hm9'.symm.trans hv.2)]
  obtain ⟨h10, hversion⟩ := hversion hv9
  have hm10 : m 10 = l.getD 10 0 := h 10 h10
  have hm10' : m' 10 = l.getD 10 0 := h' 10 h10
  have hhead : m 8 = 0xa5 ∧ m (8 + 1) = 0xa5 := ⟨hm8.trans hv8, hm9.trans hv9⟩
  have hhead' : m' 8 = 0xa5 ∧ m' (8 + 1) = 0xa5 := ⟨hm8'.trans hv8, hm9'.trans hv9⟩
  rw [if_pos hhead, if_pos hhead', hm10, hm10']
  by_cases hboard : boardOf (l.getD 10 0).toNat ≠ 0
  · have h13 := hversion (boardOf_ne_zero.mp hboard)
    have hm11 : m 11 = m' 11 := h.congr h' (i := 11) (by omega)
    have hm12 : m 12 = m' 12 := h.congr h' (i := 12) (by omega)
    have hm13 : m 13 = m' 13 := h.congr h' (i := 13) h13
    rw [if_pos hboard, if_pos hboard, hm11, hm12, hm13]
  · rw [if_neg hboard, if_neg hboard]

/-- Two buffers with the same known bytes that decide leave the same angles and version. -/
theorem imu_core {s : CGyroDevice} {m m' : Int → UInt8} {n n' : Nat} {f f' : UInt8} {l : List UInt8} (h : Holds m l)
    (h' : Holds m' l) (hd : DecidesImu l) :
    core (uart2GetImu (s.withRx m n f)) = core (uart2GetImu (s.withRx m' n' f')) := by
  have h8 := hd.1
  have hyaw : field m 2 = field m' 2 := field_congr h h' 2 (by omega)
  have hpitch : field m 4 = field m' 4 := field_congr h h' 4 (by omega)
  have hroll : field m 6 = field m' 6 := field_congr h h' 6 (by omega)
  rw [uart2GetImu_eq, uart2GetImu_eq]
  simp only [CGyroDevice.withRx, hyaw, hpitch, hroll, versionAfter_congr h h' hd]
  rfl

theorem motion_core {s : CGyroDevice} {m m' : Int → UInt8} {n n' : Nat} {f f' : UInt8} {l : List UInt8} (h : Holds m l)
    (h' : Holds m' l) (hd : 19 < l.length) :
    core (uart2GetMotion (s.withRx m n f)) = core (uart2GetMotion (s.withRx m' n' f')) := by
  have hf : ∀ i : Nat, i < 19 → field m (i : Nat) = field m' (i : Nat) := fun i hi => field_congr h h' i (by omega)
  have h2 : field m 2 = field m' 2 := hf 2 (by decide)
  have h4 : field m 4 = field m' 4 := hf 4 (by decide)
  have h6 : field m 6 = field m' 6 := hf 6 (by decide)
  have h8 : field m 8 = field m' 8 := hf 8 (by decide)
  have h10 : field m 10 = field m' 10 := hf 10 (by decide)
  have h12 : field m 12 = field m' 12 := hf 12 (by decide)
  have h14 : field m 14 = field m' 14 := hf 14 (by decide)
  have h16 : field m 16 = field m' 16 := hf 16 (by decide)
  have h18 : field m 18 = field m' 18 := hf 18 (by decide)
  unfold uart2GetMotion
  simp only [CGyroDevice.withRx, h2, h4, h6, h8, h10, h12, h14, h16, h18]
  rfl

theorem route_core {s : CGyroDevice} {m m' : Int → UInt8} {n n' : Nat} {f f' : UInt8} {l : List UInt8} (h : Holds m l)
    (h' : Holds m' l) (hd : Decides l) :
    core (route (s.withRx m n f)).1 = core (route (s.withRx m' n' f')).1 := by
  obtain ⟨h1, himu, hmotion⟩ := hd
  have hm : m 1 = l.getD 1 0 := h 1 h1
  have hm' : m' 1 = l.getD 1 0 := h' 1 h1
  have htype : (s.withRx m n f).rxBuffer 1 = l.getD 1 0 := hm
  have htype' : (s.withRx m' n' f').rxBuffer 1 = l.getD 1 0 := hm'
  unfold route
  rw [htype, htype']
  by_cases ha1 : l.getD 1 0 = 0xa1
  · rw [if_pos ha1, if_pos ha1]
    have hcore : core (uart2GetImu (s.withRx m n f)) = core (uart2GetImu (s.withRx m' n' f')) := imu_core h h' (himu ha1)
    exact congrArg (fun c : CGyroDevice => { c with isImuReady := true }) hcore
  rw [if_neg ha1, if_neg ha1]
  by_cases ha2 : l.getD 1 0 = 0xa2
  · rw [if_pos ha2, if_pos ha2]
    have hcore : core (uart2GetMotion (s.withRx m n f)) = core (uart2GetMotion (s.withRx m' n' f')) :=
      motion_core h h' (hmotion ha2)
    exact congrArg (fun c : CGyroDevice => countFreeze { c with isMotionReady := true }) hcore
  rw [if_neg ha2, if_neg ha2]
  -- the other types read no field
  repeat' split
  all_goals first | rfl | contradiction

/-! ## Two receivers -/

/-- The call that `b` leads to, if it does, finds what it reads among the known bytes. -/
def Covered (g : Fresh) (b : UInt8) : Prop := g.Completes b → Decides (g.store b)

/-- Receivers that know the same bytes and differ in the rest of their buffers. -/
structure Twins (g : Fresh) (s t : CGyroDevice) : Prop where
  left : Knows g s
  right : Knows g t
  core : core s = core t
  below : s.rxBuffer (-1) = t.rxBuffer (-1)

/-- The byte below the buffer is never written. -/
theorem decode_below {s : CGyroDevice} (hi : s.rxWrIndex ≤ 49) (b : UInt8) :
    (decodeFrame s b).1.rxBuffer (-1) = s.rxBuffer (-1) := by
  by_cases hb : b = 0x5a ∧ head s
  · rw [hb.1, (decode_header s hb.2).1]
  · rw [(decode_store s hi b hb).1, update_of_ne (by omega)]

/-- The buffer a call finds, and whether it accepts it. -/
theorem Knows.stored {g : Fresh} {s : CGyroDevice} (h : Knows g s) (b : UInt8) :
    Holds (update s.rxBuffer s.rxWrIndex b) (g.store b) := by
  intro i hi
  rw [h.index]
  exact Fresh.update_store h.wf b h.bytes hi

theorem Knows.sumCheck_eq {g : Fresh} {s : CGyroDevice} (h : Knows g s) {b : UInt8}
    (hfull : g.index + 1 = ((g.store b).getD 0 0).toNat) :
    sumCheck (update s.rxBuffer s.rxWrIndex b) = sumCheck (memOf (s.rxBuffer (-1)) (g.store b)) := by
  have hlen := Fresh.length_store h.wf b
  have h0 : update s.rxBuffer s.rxWrIndex b 0 = (g.store b).getD 0 0 := h.stored b 0 (by omega)
  refine sumCheck_congr (by rw [h0]; exact (memOf_nat _ _ 0).symm) ?_ (by rw [h0]; omega) ?_
  · rw [update_of_ne (by omega)]
    rfl
  · intro i hi
    rw [h0] at hi
    rw [memOf_nat]
    exact h.stored b i (by omega)

/-- A byte without a call, or with one whose checksum is wrong, is quiet. -/
theorem decode_core_quiet {g : Fresh} {s : CGyroDevice} (h : Knows g s) {b : UInt8}
    (hno : ¬ (b ≠ 0xa5 ∧ b ≠ 0x5a ∧ g.index + 1 = ((g.store b).getD 0 0).toNat ∧
      sumCheck (memOf (s.rxBuffer (-1)) (g.store b)) = true)) : core (decodeFrame s b).1 = core s := by
  have hi := h.index_le
  have hlen := Fresh.length_store h.wf b
  rcases hc : (decodeFrame s b).2 with _ | c
  · exact (decode_quiet hc).core_eq
  obtain ⟨ha, hb, hL, -⟩ := decode_call s hi b c hc
  have hfull : g.index + 1 = ((g.store b).getD 0 0).toNat := by
    have h0 : update s.rxBuffer s.rxWrIndex b 0 = (g.store b).getD 0 0 := h.stored b 0 (by omega)
    rw [← h0, ← hL, h.index]
  refine (decode_rejected hi ha hb hL ?_).core_eq
  rw [h.sumCheck_eq hfull]
  exact Bool.eq_false_of_not_eq_true fun hsum => hno ⟨ha, hb, hfull, hsum⟩

theorem twins_next {g : Fresh} {s t : CGyroDevice} (h : Twins g s t) {b : UInt8} (hb : Covered g b) :
    Twins (g.next b) (decodeFrame s b).1 (decodeFrame t b).1 := by
  have his := h.left.index_le
  have hit := h.right.index_le
  refine ⟨knows_next h.left b, knows_next h.right b, ?_, by rw [decode_below his, decode_below hit, h.below]⟩
  by_cases hcall : b ≠ 0xa5 ∧ b ≠ 0x5a ∧ g.index + 1 = ((g.store b).getD 0 0).toNat ∧
      sumCheck (memOf (s.rxBuffer (-1)) (g.store b)) = true
  · obtain ⟨ha, hb', hfull, hsum⟩ := hcall
    have hd : Decides (g.store b) := hb ⟨ha, hb', hfull, _, hsum⟩
    have hlen := Fresh.length_store h.left.wf b
    have hL : s.rxWrIndex + 1 = (update s.rxBuffer s.rxWrIndex b 0).toNat := by
      have h0 : update s.rxBuffer s.rxWrIndex b 0 = (g.store b).getD 0 0 := h.left.stored b 0 (by omega)
      rw [h0, h.left.index, hfull]
    have hL' : t.rxWrIndex + 1 = (update t.rxBuffer t.rxWrIndex b 0).toNat := by
      have h0 : update t.rxBuffer t.rxWrIndex b 0 = (g.store b).getD 0 0 := h.right.stored b 0 (by omega)
      rw [h0, h.right.index, hfull]
    obtain ⟨n, f, hq⟩ := decode_complete his ha hb' hL (by rw [h.left.sumCheck_eq hfull, hsum])
    obtain ⟨n', f', hq'⟩ := decode_complete hit ha hb' hL' (by rw [h.right.sumCheck_eq hfull, ← h.below, hsum])
    rw [hq.core_eq, hq'.core_eq, ← withRx_core s, ← withRx_core t, h.core]
    exact route_core (h.left.stored b) (h.right.stored b) hd
  · have hcall' := hcall
    rw [h.below] at hcall'
    rw [decode_core_quiet h.left hcall, decode_core_quiet h.right hcall', h.core]

theorem twins_feed (body : List UInt8) {g : Fresh} {s t : CGyroDevice} (h : Twins g s t)
    (hc : Along Fresh.next Covered g body) : Twins (run Fresh.next g body) (feed s body) (feed t body) := by
  induction body generalizing g s t with
  | nil => exact h
  | cons b body ih => exact ih (twins_next h hc.1) hc.2

/-! ## The sensor fields -/

structure Sensors where
  yaw : Rat
  pitch : Rat
  roll : Rat
  version : Nat → Nat
  motion : Motion
  gyroFreezeCounter : Nat
  accFreezeCounter : Nat

def sensors (s : CGyroDevice) : Sensors :=
  { yaw := s.yaw, pitch := s.pitch, roll := s.roll, version := s.version, motion := motionOf s
    gyroFreezeCounter := s.gyroFreezeCounter, accFreezeCounter := s.accFreezeCounter }

theorem sensors_core (s : CGyroDevice) : sensors (core s) = sensors s := rfl

theorem sensors_of_core {s t : CGyroDevice} (h : core s = core t) : sensors s = sensors t := by
  rw [← sensors_core s, h, sensors_core]

/-- Behind a header and `body` the sensor fields are the same whatever the buffer held. -/
def SameSensors (body : List UInt8) : Prop :=
  ∀ (s : CGyroDevice) (m : Int → UInt8), s.rxWrIndex ≤ 49 →
    (∀ i : Int, ¬ (0 ≤ i ∧ i < rxBufferSize) → m i = s.rxBuffer i) →
      sensors (feed s (0xa5 :: 0x5a :: body)) = sensors (feed { s with rxBuffer := m } (0xa5 :: 0x5a :: body))

/-- Every accepted call on the way finds all it reads among the bytes since the header. -/
def AllCovered (body : List UInt8) : Prop := Along Fresh.next Covered Fresh.header body

theorem twins_header {s : CGyroDevice} (hs : s.rxWrIndex ≤ 49) {m : Int → UInt8} (hm : m (-1) = s.rxBuffer (-1)) :
    Twins Fresh.header (feed s [0xa5, 0x5a]) (feed { s with rxBuffer := m } [0xa5, 0x5a]) := by
  refine ⟨knows_header hs, knows_header hs, ?_, ?_⟩
  · rw [(header_quiet _).core_eq, (header_quiet _).core_eq]
    rfl
  · rw [(sim_header s hs).below, (sim_header { s with rxBuffer := m } hs).below]
    exact hm.symm

theorem same_of_covered {body : List UInt8} (h : AllCovered body) : SameSensors body := by
  intro s m hs hm
  have hbelow : m (-1) = s.rxBuffer (-1) := hm (-1) fun h => absurd h.1 (by decide)
  exact sensors_of_core (twins_feed body (twins_header hs hbelow) h).core

/-! ## A stretch without a pair inside -/

/-- What the buffer holds of `k` when `v` has been written from its start. -/
def overlay (k v : List UInt8) : List UInt8 := v ++ k.drop v.length

theorem store_overlay (k v : List UInt8) (b : UInt8) (f : Bool) :
    Fresh.store ⟨overlay k v, v.length, f⟩ b = overlay k (v ++ [b]) := by
  unfold Fresh.store overlay
  dsimp only
  rw [List.length_append, List.length_append, List.length_singleton, ← List.drop_drop]
  cases k.drop v.length with
  | nil =>
    rw [if_neg (by simp)]
    simp
  | cons y t =>
    rw [if_pos (by simp), List.set_append_right _ _ (Nat.le_refl _), Nat.sub_self]
    simp

/-- Without a pair the stretch is written from the start of the buffer. -/
theorem run_overlay (k : List UInt8) {v : List UInt8} (hpair : ¬ [0xa5, 0x5a] <:+: v) (h50 : v.length ≤ 50) :
    run Fresh.next ⟨k, 0, false⟩ v = ⟨overlay k v, min v.length 49, v.getLast? = some 0xa5⟩ := by
  induction v using List.reverseRecOn with
  | nil => rfl
  | append_singleton q x ih =>
    rw [List.length_append, List.length_singleton] at h50
    have hnot : ¬ (x = 0x5a ∧ decide (q.getLast? = some 0xa5) = true) :=
      fun h => hpair (pair_snoc (of_decide_eq_true h.2) h.1)
    have hidx : min q.length 49 = q.length := by omega
    rw [run_snoc, ih (noPair_of_snoc hpair) (by omega), hidx]
    unfold Fresh.next
    rw [if_neg hnot, store_overlay]
    simp

theorem fresh_run {p : List UInt8} (hpair : ¬ [0xa5, 0x5a] <:+: p) (h50 : p.length ≤ 50) :
    run Fresh.next Fresh.header p = ⟨p, min p.length 49, p.getLast? = some 0xa5⟩ := by
  have h := run_overlay [] hpair h50
  rwa [show overlay [] p = p by simp [overlay]] at h

/-- With no pair before it, only the last byte of a frame completes it. -/
theorem full_last {body p r : List UInt8} {e : UInt8} (h50 : body.length ≤ 50) (hlen : (body.getD 0 0).toNat = body.length)
    (hp : ¬ [0xa5, 0x5a] <:+: p) (he : body = p ++ e :: r)
    (hfull : (run Fresh.next Fresh.header p).index + 1 = (((run Fresh.next Fresh.header p).store e).getD 0 0).toNat) :
    r = [] ∧ (run Fresh.next Fresh.header p).store e = body := by
  have hbody : body.length = p.length + 1 + r.length := by
    rw [he, List.length_append, List.length_cons]
    omega
  have hidx : min p.length 49 = p.length := by omega
  have hfirst : (p ++ [e]).getD 0 0 = body.getD 0 0 := by
    rw [he]
    cases p with
    | nil => rfl
    | cons y p => rfl
  rw [fresh_run hp (by omega), hidx] at hfull ⊢
  have hstore : Fresh.store ⟨p, p.length, p.getLast? = some 0xa5⟩ e = p ++ [e] := if_neg (Nat.lt_irrefl _)
  rw [hstore] at hfull ⊢
  rw [hfirst, hlen] at hfull
  have hr : r = [] := List.length_eq_zero_iff.mp (by dsimp only at hfull; omega)
  exact ⟨hr, by rw [he, hr]⟩

theorem completes_last {body p r : List UInt8} {e : UInt8} (hframe : IsFrame body) (hpair : ¬ [0xa5, 0x5a] <:+: body)
    (he : body = p ++ e :: r) (hc : (run Fresh.next Fresh.header p).Completes e) :
    r = [] ∧ (run Fresh.next Fresh.header p).store e = body := by
  have hp : ¬ [0xa5, 0x5a] <:+: p := fun h => hpair (h.trans ⟨[], e :: r, by rw [he]; simp⟩)
  obtain ⟨-, -, hfull, -⟩ := hc
  exact full_last hframe.le_fifty hframe.lengthByte hp he hfull

/-- What lies behind the bytes received is what the buffer held before. -/
theorem feed_stale {s : CGyroDevice} (hs : s.rxWrIndex = 0) {q : List UInt8} (hpair : ¬ [0xa5, 0x5a] <:+: q)
    (h49 : q.length ≤ 49) {i : Nat} (hi : q.length < i) :
    (feed (feed s [0xa5, 0x5a]) q).rxBuffer (i : Nat) = s.rxBuffer (i : Nat) := by
  have hs49 : s.rxWrIndex ≤ 49 := by omega
  induction q using List.reverseRecOn with
  | nil =>
    have hne : ¬ ((0xa5 : UInt8) = 0x5a ∧ head s) := fun h => absurd h.1 (by decide)
    obtain ⟨h1, -, h3⟩ := decode_store s hs49 0xa5 hne
    show (decodeFrame (decodeFrame s 0xa5).1 0x5a).1.rxBuffer (i : Nat) = _
    rw [(decode_header _ (h3.mpr rfl)).1, h1, hs, update_of_ne]
    have hi0 : 0 < i := hi
    omega
  | append_singleton q x ih =>
    rw [List.length_append, List.length_singleton] at h49 hi
    have hsim := sim_cut s hs49 (noPair_of_snoc hpair) (List.prefix_refl q)
    have hindex : (feed (feed s [0xa5, 0x5a]) q).rxWrIndex = min q.length 49 := hsim.index
    have hstored : ¬ (x = 0x5a ∧ head (feed (feed s [0xa5, 0x5a]) q)) :=
      fun h => hpair (pair_snoc (of_decide_eq_true (hsim.half.mp h.2)) h.1)
    rw [feed_snoc, (decode_store _ (sim_index_le hsim) x hstored).1, hindex, update_of_ne (by omega),
      ih (noPair_of_snoc hpair) (by omega) (by omega)]

/-! ## Two buffers that show -/

theorem route_imu {s : CGyroDevice} {m : Int → UInt8} {n : Nat} {f : UInt8} (h : m 1 = 0xa1) :
    (sensors (route (s.withRx m n f)).1).roll = field m 6 / 10 ∧
      (sensors (route (s.withRx m n f)).1).version = versionAfter m s.version := by
  have htype : (s.withRx m n f).rxBuffer 1 = 0xa1 := h
  unfold route
  rw [if_pos htype, uart2GetImu_eq]
  exact ⟨rfl, rfl⟩

theorem route_motion {s : CGyroDevice} {m : Int → UInt8} {n : Nat} {f : UInt8} (h : m 1 = 0xa2) :
    (sensors (route (s.withRx m n f)).1).motion.offGz = field m 18 := by
  have htype : (s.withRx m n f).rxBuffer 1 = 0xa2 := h
  have hne : ¬ (s.withRx m n f).rxBuffer 1 = 0xa1 := by rw [htype]; decide
  unfold route
  rw [if_neg hne, if_pos htype]
  rfl

/-- A buffer that answers every field differently from one of zeros. -/
def staleByte (i : Int) : UInt8 := if i = 7 ∨ i = 13 ∨ i = 19 then 1 else if i = 8 ∨ i = 9 then 0xa5 else 0

/-- Two values with the same high byte and the low bytes 0 and 1. -/
theorem field_ne {m m' : Int → UInt8} {i : Int} (hhi : m i = m' i) (hlo : m (i + 1) = 0) (hlo' : m' (i + 1) = 1) :
    field m i ≠ field m' i := by
  have hlt := (m' i).toNat_lt
  unfold field raw16
  rw [hhi, hlo, hlo', signMag_eq (by rw [UInt8.toNat_zero]; omega), signMag_eq (by rw [UInt8.toNat_one]; omega),
    UInt8.toNat_zero, UInt8.toNat_one]
  generalize (m' i).toNat * 256 = c at *
  split
  · split
    · omega
    · omega
  · split
    · omega
    · omega

/-- A version head that one buffer has and the other does not. -/
theorem head_differs {m m' : Int → UInt8} (h : m 8 = 0) (h8 : m' 8 = 0xa5) (h9 : m' 9 = 0xa5) (h10 : m' 10 = 0)
    {version : Nat → Nat} (hv : version 0 = 5) : versionAfter m version ≠ versionAfter m' version := by
  have hno : ¬ raw16 m 8 = versionHead := by
    rw [raw16_eq_versionHead, h]
    exact fun h => absurd h.1 (by decide)
  have hyes : raw16 m' 8 = versionHead := (raw16_eq_versionHead m' 8).mpr ⟨h8, h9⟩
  intro heq
  have hzero := congrFun heq 0
  unfold versionAfter at hzero
  rw [if_neg hno, if_pos hyes, h10, if_neg (by decide), update_self, hv] at hzero
  exact absurd hzero (by decide)

/-- The angles decide, and the version head does up to the board, but for what is behind it. -/
theorem version_cut {l : List UInt8} (h8 : 8 < l.length) (hlast : l.getD (l.length - 1) 0 ≠ 0xa5) (hd : ¬ DecidesImu l) :
    l.getD 8 0 = 0xa5 ∧ l.getD 9 0 = 0xa5 ∧ 10 < l.length ∧ boardOf (l.getD 10 0).toNat ≠ 0 ∧ l.length ≤ 13 := by
  have hshort : ∀ k, l.length = k + 1 → l.getD k 0 ≠ 0xa5 := by
    intro k hk
    have hend := hlast
    rwa [hk, Nat.add_sub_cancel] at hend
  have hv8 : l.getD 8 0 = 0xa5 := by
    by_contra hne
    exact hd ⟨by omega, fun hyes => absurd hyes hne⟩
  have h9 : 9 < l.length := by
    have hne := hshort 8
    by_contra hle
    exact hne (by omega) hv8
  have hv9 : l.getD 9 0 = 0xa5 := by
    by_contra hne
    exact hd ⟨by omega, fun _ => ⟨h9, fun hyes => absurd hyes hne⟩⟩
  have h10 : 10 < l.length := by
    have hne := hshort 9
    by_contra hle
    exact hne (by omega) hv9
  refine ⟨hv8, hv9, h10, ?_⟩
  by_contra hnot
  refine hd ⟨by omega, fun _ => ⟨h9, fun _ => ⟨h10, fun hb => ?_⟩⟩⟩
  by_contra hle
  exact hnot ⟨boardOf_ne_zero.mpr hb, by omega⟩

/-- An angle frame whose known bytes do not decide. -/
theorem imu_differs {m m' : Int → UInt8} {l : List UInt8} (h : Holds m l) (h' : Holds m' l)
    (hm : ∀ i : Nat, l.length ≤ i → m i = 0) (hm' : ∀ i : Nat, l.length ≤ i → m' i = staleByte i)
    (hlast : l.getD (l.length - 1) 0 ≠ 0xa5) (hd : ¬ DecidesImu l) (version : Nat → Nat) (hv : version 0 = 5) :
    field m 6 ≠ field m' 6 ∨ versionAfter m version ≠ versionAfter m' version := by
  have hsix : m 6 = m' 6 := by
    by_cases hi : 6 < l.length
    · exact h.congr h' (i := 6) hi
    · have hz : m 6 = 0 := hm 6 (by omega)
      have hz' : m' 6 = 0 := hm' 6 (by omega)
      rw [hz, hz']
  by_cases h7 : l.length ≤ 7
  · -- the low byte of roll
    exact .inl (field_ne hsix (hm 7 h7) (hm' 7 h7))
  right
  by_cases h8 : l.length = 8
  · exact head_differs (hm 8 (by omega)) (hm' 8 (by omega)) (hm' 9 (by omega)) (hm' 10 (by omega)) hv
  -- the version is there but for the bytes behind the board
  obtain ⟨hv8, hv9, h10, hboard, h13⟩ := version_cut (by omega) hlast hd
  have hhead : ∀ {b : Int → UInt8}, Holds b l → raw16 b 8 = versionHead ∧ boardOf (b 10).toNat ≠ 0 := by
    intro b hb
    have h8b : b 8 = l.getD 8 0 := hb 8 (by omega)
    have h9b : b 9 = l.getD 9 0 := hb 9 (by omega)
    have h10b : b 10 = l.getD 10 0 := hb 10 h10
    exact ⟨(raw16_eq_versionHead b 8).mpr ⟨h8b.trans hv8, h9b.trans hv9⟩, by rw [h10b]; exact hboard⟩
  intro heq
  have hthree := congrFun heq 3
  unfold versionAfter at hthree
  rw [if_pos (hhead h).1, if_pos (hhead h).2, if_pos (hhead h').1, if_pos (hhead h').2, update_self, update_self] at hthree
  have hz : m 13 = 0 := hm 13 h13
  have hone : m' 13 = 1 := hm' 13 h13
  rw [hz, hone] at hthree
  exact absurd hthree (by decide)

/-- A call on known bytes that do not decide shows in the sensor fields. -/
theorem route_differs {s : CGyroDevice} {m m' : Int → UInt8} {n n' : Nat} {f f' : UInt8} {l : List UInt8} (h : Holds m l)
    (h' : Holds m' l) (hm : ∀ i : Nat, l.length ≤ i → m i = 0) (hm' : ∀ i : Nat, l.length ≤ i → m' i = staleByte i)
    (hlast : l.getD (l.length - 1) 0 ≠ 0xa5) (h1 : 1 < l.length) (hd : ¬ Decides l) (hv : s.version 0 = 5) :
    sensors (route (s.withRx m n f)).1 ≠ sensors (route (s.withRx m' n' f')).1 := by
  have hm1 : m 1 = l.getD 1 0 := h 1 h1
  have hm1' : m' 1 = l.getD 1 0 := h' 1 h1
  intro heq
  by_cases ha1 : l.getD 1 0 = 0xa1
  · have hno2 : ¬ l.getD 1 0 = 0xa2 := by rw [ha1]; decide
    have hnot : ¬ DecidesImu l := fun hi => hd ⟨h1, fun _ => hi, fun h2 => absurd h2 hno2⟩
    obtain ⟨hroll, hversion⟩ := route_imu (s := s) (n := n) (f := f) (hm1.trans ha1)
    obtain ⟨hroll', hversion'⟩ := route_imu (s := s) (n := n') (f := f') (hm1'.trans ha1)
    rcases imu_differs h h' hm hm' hlast hnot s.version hv with hne | hne
    · rw [heq, hroll'] at hroll
      have hten : (10 : Rat) ≠ 0 := by decide
      have hcast : ((field m' 6 : Int) : Rat) = (field m 6 : Int) := (div_left_inj' hten).mp hroll
      exact hne (Rat.intCast_inj.mp hcast).symm
    · rw [heq, hversion'] at hversion
      exact hne hversion.symm
  · have ha2 : l.getD 1 0 = 0xa2 := by
      by_contra hne
      exact hd ⟨h1, fun hyes => absurd hyes ha1, fun hyes => absurd hyes hne⟩
    have h19 : l.length ≤ 19 := by
      by_contra hle
      exact hd ⟨h1, fun hyes => absurd hyes ha1, fun _ => by omega⟩
    have hz := route_motion (s := s) (n := n) (f := f) (hm1.trans ha2)
    have hz' := route_motion (s := s) (n := n') (f := f') (hm1'.trans ha2)
    rw [heq, hz'] at hz
    have h18 : m 18 = m' 18 := by
      by_cases hlt : 18 < l.length
      · exact h.congr h' (i := 18) hlt
      · have hz18 : m 18 = 0 := hm 18 (by omega)
        have hz18' : m' 18 = 0 := hm' 18 (by omega)
        rw [hz18, hz18']
    exact field_ne h18 (hm 19 h19) (hm' 19 h19) hz.symm

def zeros : CGyroDevice := { (default : CGyroDevice) with rxBuffer := fun _ => 0, version := fun _ => 5 }

theorem covered_of_same {body : List UInt8} (hframe : IsFrame body) (hpair : ¬ [0xa5, 0x5a] <:+: body)
    (h : SameSensors body) : AllCovered body := by
  refine (along_iff_forall _ _).mpr ?_
  intro q x r he hc
  obtain ⟨rfl, hstore⟩ := completes_last hframe hpair he hc
  obtain ⟨ha, hb, -⟩ := hc
  rw [hstore]
  subst he
  by_contra hd
  have h3 := hframe.three_le
  have h50 := hframe.le_fifty
  rw [List.length_append, List.length_singleton] at h3 h50
  have hq : ¬ [0xa5, 0x5a] <:+: q := noPair_of_snoc hpair
  -- one buffer of zeros, and one that answers differently
  have hsame := h zeros staleByte (by decide) fun i hi => if_neg (by unfold rxBufferSize at hi; omega) |>.trans
    (if_neg (by unfold rxBufferSize at hi; omega))
  obtain ⟨m, n, f, hroute, hm, hbytes⟩ := feed_frame (s := zeros) (by decide) hframe ha hb hpair
  obtain ⟨m', n', f', hroute', hm', hbytes'⟩ :=
    feed_frame (s := { zeros with rxBuffer := staleByte }) (by decide) hframe ha hb hpair
  have hstale : ∀ i : Nat, (q ++ [x]).length ≤ i → m i = 0 := by
    intro i hi
    rw [List.length_append, List.length_singleton] at hi
    rw [hm, update_of_ne (by omega), feed_stale (s := zeros) rfl hq (by omega) (by omega)]
    rfl
  have hstale' : ∀ i : Nat, (q ++ [x]).length ≤ i → m' i = staleByte i := by
    intro i hi
    rw [List.length_append, List.length_singleton] at hi
    rw [hm', update_of_ne (by omega), feed_stale (s := { zeros with rxBuffer := staleByte }) rfl hq (by omega) (by omega)]
  have hlast : (q ++ [x]).getD ((q ++ [x]).length - 1) 0 ≠ 0xa5 := by
    rw [List.length_append, List.length_singleton, Nat.add_sub_cancel, List.getD_append_right _ _ _ _ (Nat.le_refl _),
      Nat.sub_self]
    exact ha
  have hdiffer : sensors (route (zeros.withRx m n f)).1 ≠ sensors (route (zeros.withRx m' n' f')).1 :=
    route_differs hbytes hbytes' hstale hstale' hlast (by rw [List.length_append, List.length_singleton]; omega) hd rfl
  have hleft := sensors_of_core hroute.core_eq
  have hright := sensors_of_core hroute'.core_eq
  rw [hleft, hright] at hsame
  exact hdiffer hsame

/-- For a frame without a pair inside, exactly; with one, the calls on the way must all be
    covered for the argument, and a later one may make up for it. -/
theorem same_iff_covered (body : List UInt8) (hframe : IsFrame body) :
    (AllCovered body → SameSensors body) ∧ (¬ [0xa5, 0x5a] <:+: body → (SameSensors body ↔ AllCovered body)) :=
  ⟨same_of_covered, fun hpair => ⟨covered_of_same hframe hpair, same_of_covered⟩⟩

/-- The shortest frame reads no field. -/
theorem same_sensors_shortest : SameSensors [3, 3, 0xaa] := by
  refine (same_iff_covered [3, 3, 0xaa] ⟨by decide, by decide, by decide, by decide⟩).1 ⟨?_, ?_, ?_, trivial⟩
  · exact fun h => absurd h.2.2.1 (by decide)
  · exact fun h => absurd h.2.2.1 (by decide)
  · exact fun _ => by decide

/-- An angle frame of five bytes: yaw, pitch and roll are what the buffer held. -/
theorem short_angles_stale : IsFrame [5, 0xa1, 0, 0xa6, 0xaa] ∧ ¬ SameSensors [5, 0xa1, 0, 0xa6, 0xaa] := by
  have hframe : IsFrame [5, 0xa1, 0, 0xa6, 0xaa] := ⟨by decide, by decide, by decide, by decide⟩
  refine ⟨hframe, ?_⟩
  intro h
  have hcovered := covered_of_same hframe (by decide) h
  have hdecides := hcovered.2.2.2.2.1 ⟨by decide, by decide, by decide, 0, by decide⟩
  exact absurd hdecides (by decide)

end SeerDIOBoard.Gyro.Receiver
