/-
  SeerDIOBoard.Gyro.ReceiverProofs — what the receiver does with a stream of bytes
  (see `SeerDIOBoard.Gyro.Receiver`), against `Lib.Framing` with the header A5 5A.

  `Sim` ties the receiver to the scan of what it has been fed: the head flag is the
  scan's `half`, the write index is the length of the body held, stopped at 49, and the
  buffer holds the body's bytes before the index. Every byte keeps it (`sim_next`), and
  whether a byte completes a frame is read off the body (`call_some`). `Sim` is reached
  from any index at most 49 by one header (`sim_header`), whatever the buffer and the
  flags held, so a header resynchronises the receiver.
-/

import Mathlib.Data.List.GetD
import SeerDIOBoard.Lib.Framing
import SeerDIOBoard.Gyro.Receiver

namespace SeerDIOBoard.Gyro.Receiver

open Function (update update_self update_of_ne)
open Lib.Machine
open Lib.Framing

/-! ## Flags -/

theorem flag_set (f m : UInt8) : (f ||| m) &&& m = m := by
  apply UInt8.toBitVec_inj.mp
  ext i hi
  simp only [UInt8.toBitVec_and, UInt8.toBitVec_or, BitVec.getElem_and, BitVec.getElem_or]
  cases m.toBitVec[i] <;> simp

theorem flag_clear (f m : UInt8) : (f &&& ~~~m) &&& m = 0 := by
  apply UInt8.toBitVec_inj.mp
  ext i hi
  simp

/-- Setting and clearing one flag leaves another as it was. -/
theorem flag_other (f : UInt8) {m n : UInt8} (h : m &&& n = 0) : ((f ||| n) &&& ~~~n) &&& m = f &&& m := by
  have hmn : ∀ i, m.toBitVec.getLsbD i = true → n.toBitVec.getLsbD i = false := by
    intro i hi
    have := congrArg (fun x : UInt8 => x.toBitVec.getLsbD i) h
    simpa [hi] using this
  apply UInt8.toBitVec_inj.mp
  ext i hi
  have := hmn i
  simp
  grind

/-- The last byte was an A5 that a 5A would complete. -/
def head (s : CGyroDevice) : Prop := s.rcFlag &&& bUartHead ≠ 0

/-! ## One byte -/

@[simp] theorem clamp_rxBuffer (s : CGyroDevice) : (clamp s).rxBuffer = s.rxBuffer := by
  unfold clamp; split <;> rfl

@[simp] theorem clamp_rcFlag (s : CGyroDevice) : (clamp s).rcFlag = s.rcFlag := by
  unfold clamp; split <;> rfl

theorem clamp_rxWrIndex (s : CGyroDevice) (h : s.rxWrIndex ≤ 50) : (clamp s).rxWrIndex = min s.rxWrIndex 49 := by
  unfold clamp rxBufferSize
  split
  · simp only; omega
  · omega

theorem route_frame (s : CGyroDevice) :
    (route s).1.rxBuffer = s.rxBuffer ∧ (route s).1.rxWrIndex = s.rxWrIndex ∧ (route s).1.rcFlag = s.rcFlag := by
  unfold route uart2GetImu
  simp only []
  repeat' split
  all_goals exact ⟨rfl, rfl, rfl⟩

/-- The call made on a completed frame: it sees the buffer, and changes neither the
    buffer nor the write index nor the head flag. -/
theorem commandRoute_spec (s : CGyroDevice) :
    let r := uart2CommandRoute { s with rcFlag := s.rcFlag ||| bRxOver }
    r.1.rxBuffer = s.rxBuffer ∧ r.1.rxWrIndex = s.rxWrIndex ∧ (head r.1 ↔ head s) ∧
      r.2.buf = s.rxBuffer ∧ r.2.accepted = sumCheck s.rxBuffer := by
  have hover : (s.rcFlag ||| bRxOver) &&& bRxOver ≠ 0 := by rw [flag_set]; decide
  have hhead : ((s.rcFlag ||| bRxOver) &&& ~~~bRxOver) &&& bUartHead = s.rcFlag &&& bUartHead := flag_other _ rfl
  simp only [uart2CommandRoute, if_pos hover]
  cases hc : sumCheck s.rxBuffer
  · simp [head, hhead]
  · obtain ⟨h1, h2, h3⟩ :=
      route_frame { s with rcFlag := (s.rcFlag ||| bRxOver) &&& ~~~bRxOver }
    simp only [if_true, head, h1, h2, h3, hhead]
    simp only [and_self]

/-- A header completed: the frame starts at the front of the buffer. -/
theorem decode_header (s : CGyroDevice) (h : head s) :
    (decodeFrame s 0x5a).1.rxBuffer = s.rxBuffer ∧ (decodeFrame s 0x5a).1.rxWrIndex = 0 ∧
      ¬ head (decodeFrame s 0x5a).1 ∧ (decodeFrame s 0x5a).2 = none := by
  have h' : s.rcFlag &&& bUartHead ≠ 0 := h
  have hne : ¬ (0x5a : UInt8) = 0xa5 := by decide
  simp only [decodeFrame, hne, if_false, if_true, if_pos h', clamp_rxBuffer]
  refine ⟨trivial, ?_, ?_, trivial⟩
  · rw [clamp_rxWrIndex _ (Nat.zero_le _)]; rfl
  · simp only [head, clamp_rcFlag, flag_clear, not_true, ne_eq, not_false_eq_true]

/-- Any other byte is stored, and the index stops at 49. -/
theorem decode_store (s : CGyroDevice) (hi : s.rxWrIndex ≤ 49) (b : UInt8) (h : ¬ (b = 0x5a ∧ head s)) :
    (decodeFrame s b).1.rxBuffer = update s.rxBuffer s.rxWrIndex b ∧
      (decodeFrame s b).1.rxWrIndex = min (s.rxWrIndex + 1) 49 ∧ (head (decodeFrame s b).1 ↔ b = 0xa5) := by
  have hidx : (s.rxWrIndex + 1) % 256 = s.rxWrIndex + 1 := Nat.mod_eq_of_lt (by omega)
  by_cases ha : b = 0xa5
  · subst ha
    have hset : (s.rcFlag ||| bUartHead) &&& bUartHead ≠ 0 := by rw [flag_set]; decide
    simp only [decodeFrame, if_true, put, hidx, clamp_rxBuffer, head, clamp_rcFlag, ne_eq, hset, not_false_eq_true,
      true_and, and_true]
    exact clamp_rxWrIndex _ (by simp only; omega)
  by_cases hb : b = 0x5a
  · subst hb
    have hn : ¬ s.rcFlag &&& bUartHead ≠ 0 := fun h' => h ⟨rfl, h'⟩
    simp only [decodeFrame, ha, if_false, if_true, if_neg hn, put, hidx, clamp_rxBuffer, head, clamp_rcFlag, flag_clear,
      ne_eq, not_true, true_and, and_true]
    exact clamp_rxWrIndex _ (by simp only; omega)
  · simp only [decodeFrame, ha, hb, if_false, put, hidx]
    split
    · obtain ⟨h1, h2, h3, -, -⟩ := commandRoute_spec
        { s with rxBuffer := update s.rxBuffer s.rxWrIndex b, rxWrIndex := s.rxWrIndex + 1,
                 rcFlag := s.rcFlag &&& ~~~bUartHead }
      simp only at h1 h2
      refine ⟨by rw [clamp_rxBuffer, h1], ?_, ?_⟩
      · rw [clamp_rxWrIndex _ (by rw [h2]; omega), h2]
      · simp only [head, clamp_rcFlag, flag_clear, ne_eq, not_true] at h3 ⊢
        simpa [ha] using h3
    · refine ⟨by rw [clamp_rxBuffer], ?_, ?_⟩
      · exact clamp_rxWrIndex _ (by simp only; omega)
      · simp [head, flag_clear]

/-- When a byte leads to a call, and what that call sees. -/
theorem decode_call (s : CGyroDevice) (hi : s.rxWrIndex ≤ 49) (b : UInt8) (c : Call) :
    (decodeFrame s b).2 = some c →
      b ≠ 0xa5 ∧ b ≠ 0x5a ∧ s.rxWrIndex + 1 = (update s.rxBuffer s.rxWrIndex b 0).toNat ∧
        c.buf = update s.rxBuffer s.rxWrIndex b ∧ c.accepted = sumCheck c.buf := by
  have hidx : (s.rxWrIndex + 1) % 256 = s.rxWrIndex + 1 := Nat.mod_eq_of_lt (by omega)
  intro h
  by_cases ha : b = 0xa5
  · simp [decodeFrame, ha] at h
  by_cases hb : b = 0x5a
  · simp [decodeFrame, hb] at h
  simp only [decodeFrame, ha, hb, if_false, put, hidx] at h
  split at h
  · rename_i hL
    obtain ⟨-, -, -, h4, h5⟩ := commandRoute_spec
      { s with rxBuffer := update s.rxBuffer s.rxWrIndex b, rxWrIndex := s.rxWrIndex + 1,
               rcFlag := s.rcFlag &&& ~~~bUartHead }
    simp only [Option.some.injEq] at h
    rw [h] at h4 h5
    exact ⟨ha, hb, hL, h4, by rw [h4]; exact h5⟩
  · cases h

theorem decode_call_some (s : CGyroDevice) (hi : s.rxWrIndex ≤ 49) (b : UInt8) (ha : b ≠ 0xa5) (hb : b ≠ 0x5a)
    (hL : s.rxWrIndex + 1 = (update s.rxBuffer s.rxWrIndex b 0).toNat) : ∃ c, (decodeFrame s b).2 = some c := by
  have hidx : (s.rxWrIndex + 1) % 256 = s.rxWrIndex + 1 := Nat.mod_eq_of_lt (by omega)
  simp only [decodeFrame, ha, hb, if_false, put, hidx, if_pos hL]
  exact ⟨_, rfl⟩

/-! ## The receiver follows the scan -/

/-- What the receiver holds of a scanned stream; `w` is the byte below the buffer. -/
structure Sim (w : UInt8) (s : CGyroDevice) (g : Seg UInt8) : Prop where
  half : head s ↔ g.half = true
  index : s.rxWrIndex = min g.body.length 49
  bytes : ∀ i, i < g.body.length → i < 49 → s.rxBuffer i = g.body.getD i 0
  below : s.rxBuffer (-1) = w

/-- The body counts as complete: its first byte is its length, or 50 once it is longer. -/
def Full (body : List UInt8) : Prop := (body.getD 0 0).toNat = min body.length 50

theorem sim_index_le {w : UInt8} {s : CGyroDevice} {g : Seg UInt8} (h : Sim w s g) : s.rxWrIndex ≤ 49 := by
  have := h.index; omega

/-- A byte stored next to the ones held: the buffer holds the longer body, all of it
    while it fits, else all but what index 49 was overwritten with. -/
theorem stored_bytes {w : UInt8} {s : CGyroDevice} {g : Seg UInt8} (h : Sim w s g) (b : UInt8) (i : Nat)
    (hi : i < (g.body ++ [b]).length) (hfit : i < 49 ∨ (g.body ++ [b]).length ≤ 50) :
    update s.rxBuffer s.rxWrIndex b i = (g.body ++ [b]).getD i 0 := by
  have hx := h.index
  simp only [List.length_append, List.length_singleton] at hi hfit
  rcases Nat.lt_succ_iff_lt_or_eq.mp hi with hlt | rfl
  · have hne : (i : Int) ≠ s.rxWrIndex := by omega
    rw [update_of_ne hne, h.bytes i hlt (by omega), List.getD_append _ _ _ _ hlt]
  · have he : (g.body.length : Int) = s.rxWrIndex := by omega
    rw [he, update_self, List.getD_append_right _ _ _ _ (Nat.le_refl _), Nat.sub_self]
    rfl

theorem stored_first {w : UInt8} {s : CGyroDevice} {g : Seg UInt8} (h : Sim w s g) (b : UInt8) :
    update s.rxBuffer s.rxWrIndex b 0 = (g.body ++ [b]).getD 0 0 :=
  stored_bytes h b 0 (by simp) (by omega)

theorem stored_below {w : UInt8} {s : CGyroDevice} {g : Seg UInt8} (h : Sim w s g) (b : UInt8) :
    update s.rxBuffer s.rxWrIndex b (-1) = w := by
  rw [update_of_ne (by omega), h.below]

theorem sim_next {w : UInt8} {s : CGyroDevice} {g : Seg UInt8} (h : Sim w s g) (b : UInt8) :
    Sim w (decodeFrame s b).1 (next 0xa5 0x5a g b) := by
  have hi := sim_index_le h
  by_cases hb : b = 0x5a ∧ head s
  · obtain ⟨rfl, hh⟩ := hb
    obtain ⟨h1, h2, h3, -⟩ := decode_header s hh
    rw [next_pair _ (h.half.mp hh)]
    exact ⟨by simpa using h3, by simpa using h2, fun i hi => absurd hi (Nat.not_lt_zero i), by rw [h1]; exact h.below⟩
  · obtain ⟨h1, h2, h3⟩ := decode_store s hi b hb
    have hx := h.index
    rw [next_other _ fun hn => hb ⟨hn.1, h.half.mpr hn.2⟩]
    refine ⟨by simpa using h3, ?_, fun i hl h49 => ?_, ?_⟩
    · rw [h2, hx, List.length_append, List.length_singleton]; omega
    · rw [h1]; exact stored_bytes h b i hl (Or.inl h49)
    · rw [h1]; exact stored_below h b

theorem sim_feed {w : UInt8} (bytes : List UInt8) {s : CGyroDevice} {g : Seg UInt8} (h : Sim w s g) :
    Sim w (feed s bytes) (run (next 0xa5 0x5a) g bytes) := by
  induction bytes generalizing s g with
  | nil => exact h
  | cons b bs ih => exact ih (sim_next h b)

/-- One header brings the receiver to the start of a frame from any index in the array,
    whatever the flags and the buffer hold. -/
theorem sim_header (s : CGyroDevice) (hi : s.rxWrIndex ≤ 49) :
    Sim (s.rxBuffer (-1)) (feed s [0xa5, 0x5a]) ⟨true, [], false⟩ := by
  have hne : ¬ ((0xa5 : UInt8) = 0x5a ∧ head s) := fun h => absurd h.1 (by decide)
  obtain ⟨h1, -, h3⟩ := decode_store s hi 0xa5 hne
  obtain ⟨k1, k2, k3, -⟩ := decode_header (decodeFrame s 0xa5).1 (h3.mpr rfl)
  refine ⟨by simpa [feed] using k3, by simpa [feed] using k2, fun i hi => absurd hi (Nat.not_lt_zero i), ?_⟩
  show (decodeFrame (decodeFrame s 0xa5).1 0x5a).1.rxBuffer (-1) = _
  rw [k1, h1, update_of_ne (by omega)]

/-! ## The calls -/

/-- A call is made on a byte other than A5 and 5A that completes the body held. -/
theorem call_some {w : UInt8} {s : CGyroDevice} {g : Seg UInt8} (h : Sim w s g) (b : UInt8) :
    (∃ c, (decodeFrame s b).2 = some c) ↔ b ≠ 0xa5 ∧ b ≠ 0x5a ∧ Full (g.body ++ [b]) := by
  have hi := sim_index_le h
  have hx := h.index
  have hfull : s.rxWrIndex + 1 = (update s.rxBuffer s.rxWrIndex b 0).toNat ↔ Full (g.body ++ [b]) := by
    unfold Full
    rw [stored_first h b, List.length_append, List.length_singleton]
    omega
  constructor
  · rintro ⟨c, hc⟩
    obtain ⟨ha, hb, hL, -⟩ := decode_call s hi b c hc
    exact ⟨ha, hb, hfull.mp hL⟩
  · rintro ⟨ha, hb, hL⟩
    exact decode_call_some s hi b ha hb (hfull.mpr hL)

/-- The bytes of a body as `rx_buffer` holds them, `w` below it. -/
def memOf (w : UInt8) (body : List UInt8) : Int → UInt8 := fun i => if i = -1 then w else body.getD i.toNat 0

@[simp] theorem memOf_nat (w : UInt8) (body : List UInt8) (i : Nat) : memOf w body i = body.getD i 0 := by
  have h : ¬ (i : Int) = -1 := by omega
  simp [memOf, h]

/-- `Sum_check` reads the length byte, the bytes before the checksum and the checksum. -/
theorem sumCheck_congr {m m' : Int → UInt8} (h0 : m 0 = m' 0) (hbelow : m (-1) = m' (-1)) (hpos : 0 < (m 0).toNat)
    (h : ∀ i : Nat, i + 2 ≤ (m 0).toNat → m i = m' i) : sumCheck m = sumCheck m' := by
  have hsum : ((List.range ((m 0).toNat - 2)).map fun i : Nat => (m i).toNat) =
      (List.range ((m 0).toNat - 2)).map fun i : Nat => (m' i).toNat := by
    apply List.map_congr_left
    intro i hi
    rw [h i (by have := List.mem_range.mp hi; omega)]
  have hlast : m (((m 0).toNat : Int) - 2) = m' (((m 0).toNat : Int) - 2) := by
    by_cases h1 : (m 0).toNat = 1
    · rw [h1]; exact hbelow
    · obtain ⟨k, hk⟩ : ∃ k : Nat, ((m 0).toNat : Int) - 2 = k := ⟨(m 0).toNat - 2, by omega⟩
      rw [hk]; exact h k (by omega)
  unfold sumCheck
  simp only [← h0, hsum, hlast]

/-- What a call sees: the buffer just written, and a checksum verdict that depends on
    the body held only. -/
theorem call_spec {w : UInt8} {s : CGyroDevice} {g : Seg UInt8} (h : Sim w s g) {b : UInt8} {c : Call}
    (hc : (decodeFrame s b).2 = some c) :
    c.accepted = sumCheck (memOf w (g.body ++ [b])) ∧ c.buf 0 = (g.body ++ [b]).getD 0 0 ∧
      ((g.body ++ [b]).length ≤ 50 → ∀ i, i < (g.body ++ [b]).length → c.buf i = (g.body ++ [b]).getD i 0) := by
  obtain ⟨-, -, -, h4, h5⟩ := decode_call s (sim_index_le h) b c hc
  have hfull : Full (g.body ++ [b]) := ((call_some h b).mp ⟨c, hc⟩).2.2
  have h0 : c.buf 0 = (g.body ++ [b]).getD 0 0 := by rw [h4]; exact stored_first h b
  have hlen : (c.buf 0).toNat = min (g.body ++ [b]).length 50 := by rw [h0]; exact hfull
  have hpos : 0 < (g.body ++ [b]).length := by simp
  refine ⟨?_, h0, fun hl i hi => by rw [h4]; exact stored_bytes h b i hi (Or.inr hl)⟩
  rw [h5]
  refine sumCheck_congr (by rw [h0]; exact (memOf_nat w _ 0).symm) ?_ (by omega) fun i hi => ?_
  · rw [h4, stored_below h b]; rfl
  · rw [memOf_nat, h4]
    exact stored_bytes h b i (by omega) (Or.inl (by omega))

theorem feed_append (s : CGyroDevice) (p q : List UInt8) : feed s (p ++ q) = feed (feed s p) q := List.foldl_append

theorem feed_snoc (s : CGyroDevice) (p : List UInt8) (b : UInt8) : feed s (p ++ [b]) = (decodeFrame (feed s p) b).1 :=
  feed_append s p [b]

theorem calls_append (s : CGyroDevice) (p q : List UInt8) : calls s (p ++ q) = calls s p ++ calls (feed s p) q := by
  induction p generalizing s with
  | nil => rfl
  | cons b p ih => simp only [List.cons_append, calls, ih]; rfl

theorem calls_none (s : CGyroDevice) (p : List UInt8)
    (h : ∀ q x r, p = q ++ x :: r → (decodeFrame (feed s q) x).2 = none) :
    calls s p = List.replicate p.length none := by
  induction p generalizing s with
  | nil => rfl
  | cons b p ih =>
    simp only [calls, List.length_cons, List.replicate_succ]
    rw [show (decodeFrame s b).2 = none from h [] b p rfl,
      ih _ fun q x r e => h (b :: q) x r (by rw [e]; rfl)]

end SeerDIOBoard.Gyro.Receiver
