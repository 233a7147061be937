/-
  SeerDIOBoard.Gyro.Frames — which frames the receiver dispatches.

  Complete: after a header, a frame of 3 to 50 bytes whose last byte is neither A5 nor
  5A and which has no A5 5A inside is dispatched exactly once, on its last byte
  (`frame_dispatched_once`), from any receiver state with the index in the array.

  Sound, as far as it goes (`frames_sound_iff`): a dispatched frame is what follows a
  header of its own, unless the stream does one of two things. `Decode_frame` has no
  state for "no header yet", so bytes before the first header are taken for a frame
  when they look like one; and the write index stands at 49 after a 50-byte frame, so
  every further byte completes that frame again. `Clean` is the absence of both.
-/

import SeerDIOBoard.Gyro.ReceiverProofs

namespace SeerDIOBoard.Gyro.Receiver

open Lib.Machine
open Lib.Framing

/-! ## Completeness -/

theorem a5_ne_5a : (0xa5 : UInt8) ≠ 0x5a := by decide

theorem map_getD_range (f : UInt8 → Nat) (l : List UInt8) (n : Nat) (hn : n ≤ l.length) :
    ((List.range n).map fun i => f (l.getD i 0)) = (l.take n).map f := by
  apply List.ext_getElem
  · simp [hn]
  · intro i h1 h2
    have hi : i < l.length := by simp at h2; omega
    simp only [List.getElem_map, List.getElem_range, List.getElem_take, List.getD_eq_getElem _ _ hi]

/-- `Sum_check` on a body that is as long as its first byte says. -/
theorem sumCheck_memOf (w : UInt8) (body : List UInt8) (h2 : 2 ≤ body.length)
    (hlen : (body.getD 0 0).toNat = body.length) :
    sumCheck (memOf w body) = true ↔
      (body.getD (body.length - 2) 0).toNat = ((body.take (body.length - 2)).map UInt8.toNat).sum % 256 := by
  have h0 : memOf w body 0 = body.getD 0 0 := memOf_nat w body 0
  have hlast : memOf w body ((body.length : Int) - 2) = body.getD (body.length - 2) 0 := by
    rw [show (body.length : Int) - 2 = ((body.length - 2 : Nat) : Int) by omega, memOf_nat]
  unfold sumCheck
  simp only [h0, hlen, hlast, memOf_nat, beq_iff_eq]
  rw [map_getD_range UInt8.toNat body _ (by omega)]
  exact eq_comm

/-- A frame cut short does not complete: its first byte asks for more. -/
theorem not_full_cut (q : List UInt8) (y : UInt8) (r : List UInt8) (hr : r ≠ [])
    (hlen : ((q ++ y :: r).getD 0 0).toNat = (q ++ y :: r).length) (h50 : (q ++ y :: r).length ≤ 50) :
    ¬ Full (q ++ [y]) := by
  intro hf
  have hpos : 0 < r.length := List.length_pos_iff.mpr hr
  have h0 : (q ++ [y]).getD 0 0 = (q ++ y :: r).getD 0 0 := by cases q <;> rfl
  unfold Full at hf
  rw [h0, hlen] at hf
  simp only [List.length_append, List.length_cons, List.length_nil] at hf h50
  omega

/-- After a header the receiver holds what it has been fed of a body without a pair. -/
theorem sim_cut (s : CGyroDevice) (hs : s.rxWrIndex ≤ 49) {body p : List UInt8} (hpair : ¬ [0xa5, 0x5a] <:+: body)
    (hp : p <+: body) :
    Sim (s.rxBuffer (-1)) (feed (feed s [0xa5, 0x5a]) p) ⟨true, p, p.getLast? = some 0xa5⟩ := by
  have h := sim_feed p (sim_header s hs)
  rwa [run_noPair true [] p fun hi => hpair (hi.trans hp.isInfix)] at h

/-- No byte of a body but the last completes it. -/
theorem cut_quiet (s : CGyroDevice) (hs : s.rxWrIndex ≤ 49) {q : List UInt8} {x : UInt8} (h50 : (q ++ [x]).length ≤ 50)
    (hlen : ((q ++ [x]).getD 0 0).toNat = (q ++ [x]).length) (hpair : ¬ [0xa5, 0x5a] <:+: q ++ [x])
    (p : List UInt8) (y : UInt8) (r : List UInt8) (he : q = p ++ y :: r) :
    (decodeFrame (feed (feed s [0xa5, 0x5a]) p) y).2 = none := by
  cases hc : (decodeFrame (feed (feed s [0xa5, 0x5a]) p) y).2 with
  | none => rfl
  | some c =>
    have hp : p <+: q ++ [x] := ⟨y :: r ++ [x], by rw [he]; simp⟩
    have he' : q ++ [x] = p ++ y :: (r ++ [x]) := by rw [he]; simp
    obtain ⟨-, -, hf⟩ := (call_some (sim_cut s hs hpair hp) y).mp ⟨c, hc⟩
    rw [he'] at hlen h50
    exact absurd hf (not_full_cut p y (r ++ [x]) (by simp) hlen h50)

/-- A header by itself leads to no call. -/
theorem calls_header (s : CGyroDevice) : calls s [0xa5, 0x5a] = [none, none] := by
  simp [calls, decodeFrame, a5_ne_5a.symm]

/-- Behind a header: no byte of a frame but the last leads to a call, and that call accepts it. -/
theorem calls_body (s : CGyroDevice) (hs : s.rxWrIndex ≤ 49) {q : List UInt8} {x : UInt8} (h3 : 3 ≤ (q ++ [x]).length)
    (h50 : (q ++ [x]).length ≤ 50) (hlen : ((q ++ [x]).getD 0 0).toNat = (q ++ [x]).length)
    (hsum : ((q ++ [x]).getD ((q ++ [x]).length - 2) 0).toNat =
      (((q ++ [x]).take ((q ++ [x]).length - 2)).map UInt8.toNat).sum % 256)
    (ha : x ≠ 0xa5) (hb : x ≠ 0x5a) (hpair : ¬ [0xa5, 0x5a] <:+: q ++ [x]) :
    calls (feed s [0xa5, 0x5a]) q = List.replicate q.length none ∧
      ∃ c, (decodeFrame (feed (feed s [0xa5, 0x5a]) q) x).2 = some c ∧ c.accepted = true ∧
        ∀ i, i < (q ++ [x]).length → c.buf i = (q ++ [x]).getD i 0 := by
  have hsim := sim_cut s hs hpair (List.prefix_append q [x])
  have hfull : Full (q ++ [x]) := by unfold Full; rw [hlen]; omega
  obtain ⟨c, hc⟩ := (call_some hsim x).mpr ⟨ha, hb, hfull⟩
  obtain ⟨hacc, -, hbuf⟩ := call_spec hsim hc
  refine ⟨calls_none _ q (cut_quiet s hs h50 hlen hpair), c, hc, ?_, hbuf h50⟩
  rw [hacc]
  exact (sumCheck_memOf _ _ (by omega) hlen).mpr hsum

theorem frame_dispatched_once (s : CGyroDevice) (hs : s.rxWrIndex ≤ 49) (body : List UInt8)
    (h3 : 3 ≤ body.length) (h50 : body.length ≤ 50) (hlen : (body.getD 0 0).toNat = body.length)
    (hsum : (body.getD (body.length - 2) 0).toNat = ((body.take (body.length - 2)).map UInt8.toNat).sum % 256)
    (hlast : ∀ x, body.getLast? = some x → x ≠ 0xa5 ∧ x ≠ 0x5a) (hpair : ¬ [0xa5, 0x5a] <:+: body) :
    ∃ c : Call, calls s (0xa5 :: 0x5a :: body) = List.replicate (body.length + 1) none ++ [some c] ∧
      c.accepted = true ∧ ∀ i, i < body.length → c.buf i = body.getD i 0 := by
  obtain ⟨q, x, rfl⟩ : ∃ q x, body = q ++ [x] := by
    rcases List.eq_nil_or_concat body with rfl | ⟨q, x, rfl⟩
    · simp at h3
    · exact ⟨q, x, by simp⟩
  have hx := hlast x (by simp)
  obtain ⟨hq, c, hc, hacc, hbuf⟩ := calls_body s hs h3 h50 hlen hsum hx.1 hx.2 hpair
  refine ⟨c, ?_, hacc, hbuf⟩
  rw [show 0xa5 :: 0x5a :: (q ++ [x]) = [0xa5, 0x5a] ++ (q ++ [x]) from rfl, calls_append, calls_append, hq, calls_header]
  simp [calls, hc, List.replicate_succ]

/-- A receiver stopped in the middle of a frame takes the shortest frame. -/
theorem frame_dispatched_once_at_17 :
    ∃ c : Call, calls { (default : CGyroDevice) with rxWrIndex := 17, rcFlag := 0xC0 } [0xa5, 0x5a, 3, 3, 0xaa] =
      [none, none, none, none, some c] ∧ c.accepted = true ∧ ∀ i : Nat, i < 3 → c.buf i = [3, 3, 0xaa].getD i 0 :=
  frame_dispatched_once { (default : CGyroDevice) with rxWrIndex := 17, rcFlag := 0xC0 } (by decide) [3, 3, 0xaa]
    (by decide) (by decide) (by decide) (by decide) (by simp) (by decide)

/-! ## Soundness -/

/-- The last byte of `xs` makes the receiver dispatch a frame. -/
def Dispatches (s : CGyroDevice) (xs : List UInt8) (c : Call) : Prop :=
  ∃ p b, xs = p ++ [b] ∧ (decodeFrame (feed s p) b).2 = some c ∧ c.accepted = true

/-- `xs` ends with a header and `body`, which is as long as its first byte says and is
    what the call finds in the buffer. -/
def OwnFrame (xs pre body : List UInt8) (c : Call) : Prop :=
  xs = pre ++ 0xa5 :: 0x5a :: body ∧ 0 < body.length ∧ (body.getD 0 0).toNat = body.length ∧
    ∀ i, i < body.length → c.buf i = body.getD i 0

/-- Every frame dispatched along the stream has a header of its own, and no header leads
    to two. -/
def Sound (s : CGyroDevice) (stream : List UInt8) : Prop :=
  (∀ xs c, xs <+: stream → Dispatches s xs c → ∃ pre body, OwnFrame xs pre body c) ∧
    ∀ xs ys c d pre b1 b2, xs <+: stream → ys <+: stream → Dispatches s xs c → Dispatches s ys d →
      OwnFrame xs pre b1 c → OwnFrame ys pre b2 d → xs = ys

/-- The bytes pass for a frame: the last is neither A5 nor 5A, the first is their number
    (50 when there are more) and the checksum is right. -/
def Passes (w : UInt8) (body : List UInt8) : Prop :=
  ∃ x, body.getLast? = some x ∧ x ≠ 0xa5 ∧ x ≠ 0x5a ∧ Full body ∧ sumCheck (memOf w body) = true

/-- Nothing received before the first header passes for a frame, and nothing longer
    than 50 bytes received after a header does. -/
def Clean (w : UInt8) (stream : List UInt8) : Prop :=
  ∀ xs, xs <+: stream → (scan 0xa5 0x5a xs).header = false ∨ 50 < (scan 0xa5 0x5a xs).body.length →
    ¬ Passes w (scan 0xa5 0x5a xs).body

def powerUp (s : CGyroDevice) : CGyroDevice := { s with rxWrIndex := 0, rcFlag := 0 }

theorem sim_powerUp (s : CGyroDevice) : Sim (s.rxBuffer (-1)) (powerUp s) Seg.start :=
  ⟨by simp [head, powerUp, Seg.start], rfl, fun i hi => absurd hi (Nat.not_lt_zero i), rfl⟩

theorem sim_stream (s : CGyroDevice) (xs : List UInt8) :
    Sim (s.rxBuffer (-1)) (feed (powerUp s) xs) (scan 0xa5 0x5a xs) :=
  sim_feed xs (sim_powerUp s)

/-- A frame is dispatched when what has come since the last header passes for one. -/
theorem dispatches_iff (s : CGyroDevice) (xs : List UInt8) :
    (∃ c, Dispatches (powerUp s) xs c) ↔ Passes (s.rxBuffer (-1)) (scan 0xa5 0x5a xs).body := by
  constructor
  · intro h
    obtain ⟨c, p, b, rfl, hc, hacc⟩ := h
    have hsim := sim_stream s p
    obtain ⟨ha, hb, hf⟩ := (call_some hsim b).mp ⟨c, hc⟩
    rw [scan_snoc, next_other _ fun h => hb h.1]
    exact ⟨b, by simp, ha, hb, hf, by rw [← (call_spec hsim hc).1]; exact hacc⟩
  · intro h
    obtain ⟨x, hx, ha, hb, hf, hsum⟩ := h
    rcases List.eq_nil_or_concat xs with rfl | ⟨p, b, rfl⟩
    · cases hx
    rw [List.concat_eq_append] at *
    have hsim := sim_stream s p
    by_cases hn : b = 0x5a ∧ (scan 0xa5 0x5a p).half = true
    · rw [scan_snoc, hn.1, next_pair _ hn.2] at hx; cases hx
    · rw [scan_snoc, next_other _ hn] at hx hf hsum
      obtain rfl : b = x := by simpa using hx
      obtain ⟨c, hc⟩ := (call_some hsim b).mpr ⟨ha, hb, hf⟩
      exact ⟨c, p, b, rfl, hc, by rw [(call_spec hsim hc).1]; exact hsum⟩

/-- The first byte a dispatch finds in the buffer is the first byte since the header. -/
theorem dispatch_spec {s : CGyroDevice} {xs : List UInt8} {c : Call} (h : Dispatches (powerUp s) xs c) :
    c.buf 0 = (scan 0xa5 0x5a xs).body.getD 0 0 ∧
      ((scan 0xa5 0x5a xs).body.length ≤ 50 → ∀ i, i < (scan 0xa5 0x5a xs).body.length →
        c.buf i = (scan 0xa5 0x5a xs).body.getD i 0) := by
  obtain ⟨p, b, rfl, hc, -⟩ := h
  have hsim := sim_stream s p
  have hb := ((call_some hsim b).mp ⟨c, hc⟩).2.1
  rw [scan_snoc, next_other _ fun h => hb h.1]
  exact (call_spec hsim hc).2

theorem clean_of_sound (s : CGyroDevice) (stream : List UInt8) (h : Sound (powerUp s) stream) :
    Clean (s.rxBuffer (-1)) stream := by
  intro xs hxs hbad hpass
  obtain ⟨c, hc⟩ := (dispatches_iff s xs).mpr hpass
  obtain ⟨pre, body, rfl, hpos, hlen, hbuf⟩ := h.1 xs c hxs hc
  obtain ⟨h1, h2⟩ := scan_after_header a5_ne_5a pre body
  rcases hbad with hno | hlong
  · rw [h1] at hno; cases hno
  · obtain ⟨x, -, -, -, hfull, -⟩ := hpass
    have h0 : c.buf 0 = body.getD 0 0 := hbuf 0 hpos
    rw [(dispatch_spec hc).1] at h0
    unfold Full at hfull
    rw [h0, hlen] at hfull
    have := h2.length_le
    omega

theorem ownFrame_of_clean (s : CGyroDevice) (stream : List UInt8) (h : Clean (s.rxBuffer (-1)) stream)
    {xs : List UInt8} {c : Call} (hxs : xs <+: stream) (hc : Dispatches (powerUp s) xs c) :
    ∃ pre body, OwnFrame xs pre body c := by
  have hpass := (dispatches_iff s xs).mp ⟨c, hc⟩
  have hhead : (scan 0xa5 0x5a xs).header = true := by
    cases hh : (scan 0xa5 0x5a xs).header
    · exact absurd hpass (h xs hxs (Or.inl hh))
    · rfl
  have hshort : (scan 0xa5 0x5a xs).body.length ≤ 50 := by
    by_cases hl : 50 < (scan 0xa5 0x5a xs).body.length
    · exact absurd hpass (h xs hxs (Or.inr hl))
    · omega
  obtain ⟨x, hx, -, -, hfull, -⟩ := hpass
  obtain ⟨pre, he, -⟩ := scan_true a5_ne_5a xs hhead
  have hpos : 0 < (scan 0xa5 0x5a xs).body.length := by
    cases hb : (scan 0xa5 0x5a xs).body with
    | nil => rw [hb] at hx; cases hx
    | cons y ys => simp
  unfold Full at hfull
  exact ⟨pre, _, he, hpos, by omega, (dispatch_spec hc).2 hshort⟩

/-- Two frames behind one header have the same length byte, so they end together. -/
theorem ownFrame_unique {stream xs ys : List UInt8} {pre b1 b2 : List UInt8} {c d : Call} (hx : xs <+: stream)
    (hy : ys <+: stream) (h1 : OwnFrame xs pre b1 c) (h2 : OwnFrame ys pre b2 d) : xs = ys := by
  obtain ⟨rfl, hp1, hl1, -⟩ := h1
  obtain ⟨rfl, hp2, hl2, -⟩ := h2
  have key : ∀ {u v : List UInt8}, 0 < u.length → u <+: v → u.getD 0 0 = v.getD 0 0 := by
    intro u v hu huv
    obtain ⟨t, rfl⟩ := huv
    exact (List.getD_append u t 0 0 hu).symm
  have hpre : ∀ {u v : List UInt8}, pre ++ 0xa5 :: 0x5a :: u <+: pre ++ 0xa5 :: 0x5a :: v → u <+: v := by
    intro u v huv
    simpa [List.prefix_append_right_inj, List.cons_prefix_cons] using huv
  have heq : b1.length = b2.length := by
    rcases List.prefix_or_prefix_of_prefix hx hy with h | h
    · rw [← hl1, ← hl2, key hp1 (hpre h)]
    · rw [← hl1, ← hl2, key hp2 (hpre h)]
  rcases List.prefix_or_prefix_of_prefix hx hy with h | h
  · exact h.eq_of_length (by simp [heq])
  · exact (h.eq_of_length (by simp [heq])).symm

/-- From power-up, with any memory: dispatched frames and headers match one to one
    exactly on the streams that are `Clean`. -/
theorem frames_sound_iff (s : CGyroDevice) (stream : List UInt8) :
    Sound (powerUp s) stream ↔ Clean (s.rxBuffer (-1)) stream :=
  ⟨clean_of_sound s stream, fun h =>
    ⟨fun _ _ hxs hc => ownFrame_of_clean s stream h hxs hc,
      fun _ _ _ _ _ _ _ hx hy _ _ h1 h2 => ownFrame_unique hx hy h1 h2⟩⟩

/-- Three bytes of noise are dispatched without a header; a 50-byte frame is dispatched
    again by the byte that follows it. -/
theorem noise_and_overrun_dispatched :
    ¬ Sound (powerUp default) [3, 3, 0xaa] ∧
      ¬ Sound (powerUp default) ([0xa5, 0x5a, 50] ++ List.replicate 47 0 ++ [50, 0xaa] ++ [0]) := by
  constructor
  · intro h
    exact clean_of_sound _ _ h [3, 3, 0xaa] (List.prefix_refl _) (Or.inl (by decide))
      ⟨0xaa, by decide, by decide, by decide, by unfold Full; decide, by decide⟩
  · intro h
    exact clean_of_sound _ _ h _ (List.prefix_refl _) (Or.inr (by decide))
      ⟨0, by decide, by decide, by decide, by unfold Full; decide, by decide⟩

end SeerDIOBoard.Gyro.Receiver
