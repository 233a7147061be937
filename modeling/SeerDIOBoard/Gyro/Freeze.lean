/-
  SeerDIOBoard.Gyro.Freeze — the freeze alarm (`accFreezeCounter_`, `gyroFreezeCounter_`
  and the call of `rstTxPowerOff` in `UART2_CommandRoute`; src/Gyro.cxx).

  Every accepted motion frame compares its acceleration with the one before it, and its
  rates with the ones before; what repeats counts up, and the alarm is raised while a
  counter is past its limit. The counters are `uint16_t`: each holds how often its triple
  has been repeated modulo 65536 (`watch_feed`), so the alarm goes quiet again in a
  freeze that lasts (`long_freeze_unnoticed`). `alarm_exact_iff` says on which streams
  the alarm is right after every frame.
-/

import SeerDIOBoard.Gyro.Motion
import SeerDIOBoard.Lib.Streak

namespace SeerDIOBoard.Gyro.Receiver

open Lib.Machine
open Lib.Framing
open Lib.Streak

/-! ## The two triples -/

inductive Sensor where
  | acc
  | gyro
  deriving DecidableEq, Repr

namespace Sensor

def limit : Sensor → Nat
  | acc => 100
  | gyro => 500

/-- The reading a frame brings. -/
def read (buf : Int → UInt8) : Sensor → Int × Int × Int
  | acc => (field buf 2, field buf 4, field buf 6)
  | gyro => (field buf 8, field buf 10, field buf 12)

/-- The reading kept from the frame before. -/
def prev (s : CGyroDevice) : Sensor → Int × Int × Int
  | acc => (s.prevAx, s.prevAy, s.prevAz)
  | gyro => (s.prevGx, s.prevGy, s.prevGz)

def counter (s : CGyroDevice) : Sensor → Nat
  | acc => s.accFreezeCounter
  | gyro => s.gyroFreezeCounter

def watch (s : CGyroDevice) (k : Sensor) : Watch (Int × Int × Int) := ⟨k.prev s, k.counter s⟩

end Sensor

/-! ## One call -/

/-- Component by component, as the source compares. -/
theorem next_triple (m : Nat) (w : Watch (Int × Int × Int)) (x y z : Int) :
    w.next m (x, y, z) =
      ⟨(x, y, z), if x = w.last.1 ∧ y = w.last.2.1 ∧ z = w.last.2.2 then (w.count + 1) % m else 0⟩ := by
  have hcomp : (x, y, z) = w.last ↔ x = w.last.1 ∧ y = w.last.2.1 ∧ z = w.last.2.2 := by
    rw [Prod.ext_iff, Prod.ext_iff]
  exact congrArg (Watch.mk _) (if_congr hcomp rfl rfl)

theorem route_motionFrame {t : CGyroDevice} (h : t.rxBuffer 1 = 0xa2) :
    (∀ k, Sensor.watch (route t).1 k = (Sensor.watch t k).next 65536 (k.read t.rxBuffer)) ∧
      ((route t).2.2 = true ↔ ∃ k : Sensor, k.limit < k.counter (route t).1) := by
  have hne : ¬ t.rxBuffer 1 = 0xa1 := by rw [h]; decide
  unfold route
  rw [if_neg hne, if_pos h]
  constructor
  · intro k
    cases k with
    | acc =>
      rw [Sensor.read, next_triple]
      rfl
    | gyro =>
      rw [Sensor.read, next_triple]
      rfl
  · rw [decide_eq_true_iff]
    constructor
    · rintro (hacc | hgyro)
      · exact ⟨.acc, hacc⟩
      · exact ⟨.gyro, hgyro⟩
    · rintro ⟨k, hk⟩
      cases k with
      | acc => exact .inl hk
      | gyro => exact .inr hk

theorem route_otherFrame {t : CGyroDevice} (h : t.rxBuffer 1 ≠ 0xa2) (k : Sensor) :
    Sensor.watch (route t).1 k = Sensor.watch t k := by
  unfold route uart2GetImu
  rw [if_neg h]
  dsimp only
  -- no other type touches the readings kept or the counters
  cases k with
  | acc =>
    repeat' split
    all_goals rfl
  | gyro =>
    repeat' split
    all_goals rfl

theorem Quiet.watch {s t : CGyroDevice} (h : Quiet s t) (k : Sensor) : Sensor.watch t k = Sensor.watch s k := by
  obtain ⟨m, n, f, rfl⟩ := h
  cases k with
  | acc => rfl
  | gyro => rfl

/-- A call on a complete frame routes it when the checksum is good, and does nothing otherwise. -/
theorem commandRoute_cases (s : CGyroDevice) :
    let r := uart2CommandRoute { s with rcFlag := s.rcFlag ||| bRxOver }
    (r.2.accepted = true ∧ ∃ t, Quiet s t ∧ r.2.buf = t.rxBuffer ∧ r.1 = (route t).1 ∧ r.2.repowered = (route t).2.2) ∨
      (r.2.accepted = false ∧ Quiet s r.1) := by
  have hover : (s.rcFlag ||| bRxOver) &&& bRxOver ≠ 0 := by rw [flag_set]; decide
  simp only [uart2CommandRoute, if_pos hover]
  cases sumCheck s.rxBuffer with
  | false => exact .inr ⟨rfl, Quiet.rcFlag s _⟩
  | true => exact .inl ⟨rfl, _, Quiet.rcFlag s ((s.rcFlag ||| bRxOver) &&& ~~~bRxOver), rfl, rfl, rfl⟩

theorem decode_some {s : CGyroDevice} {b : UInt8} {c : Call} (h : (decodeFrame s b).2 = some c) :
    (c.accepted = true ∧
      ∃ t, Quiet s t ∧ c.buf = t.rxBuffer ∧ Quiet (route t).1 (decodeFrame s b).1 ∧ c.repowered = (route t).2.2) ∨
      (c.accepted = false ∧ Quiet s (decodeFrame s b).1) := by
  unfold decodeFrame at h ⊢
  by_cases ha : b = 0xa5
  · rw [if_pos ha] at h
    cases h
  by_cases hb : b = 0x5a
  · rw [if_neg ha, if_pos hb] at h
    cases h
  rw [if_neg ha, if_neg hb] at h ⊢
  dsimp only at h ⊢
  have hput : Quiet s { put s b with rcFlag := (put s b).rcFlag &&& ~~~bUartHead } :=
    (Quiet.put s b).trans (Quiet.rcFlag _ _)
  split at h
  case isFalse => cases h
  case isTrue hL =>
    rw [if_pos hL]
    have hcases := commandRoute_cases { put s b with rcFlag := (put s b).rcFlag &&& ~~~bUartHead }
    dsimp only at hcases
    rw [Option.some.inj h] at hcases
    rcases hcases with ⟨hacc, t, hq, hbuf, hstate, hpower⟩ | ⟨hacc, hq⟩
    · refine .inl ⟨hacc, t, hput.trans hq, hbuf, ?_, hpower⟩
      rw [← hstate]
      exact Quiet.clamp _
    · exact .inr ⟨hacc, (hput.trans hq).trans (Quiet.clamp _)⟩

/-! ## The motion frames of a stream -/

/-- The call, if it accepts a motion frame. -/
def heard : Option Call → List Call
  | some c => if c.accepted = true ∧ c.buf 1 = 0xa2 then [c] else []
  | none => []

def motionCalls (s : CGyroDevice) (bytes : List UInt8) : List Call := (calls s bytes).flatMap heard

/-- What the frames of the stream have brought of one triple. -/
def reads (k : Sensor) (s : CGyroDevice) (bytes : List UInt8) : List (Int × Int × Int) :=
  (motionCalls s bytes).map fun c => k.read c.buf

/-- With the reading kept from before the stream. -/
def readings (k : Sensor) (s : CGyroDevice) (bytes : List UInt8) : List (Int × Int × Int) := k.prev s :: reads k s bytes

theorem watch_decode (s : CGyroDevice) (b : UInt8) (k : Sensor) :
    Sensor.watch (decodeFrame s b).1 k =
      run (Watch.next 65536) (Sensor.watch s k) ((heard (decodeFrame s b).2).map fun c => k.read c.buf) := by
  cases hc : (decodeFrame s b).2 with
  | none => exact (decode_quiet hc).watch k
  | some c =>
    rcases decode_some hc with ⟨hacc, t, hq, hbuf, hstate, -⟩ | ⟨hacc, hq⟩
    · rw [hstate.watch k]
      by_cases ha2 : c.buf 1 = 0xa2
      · have hheard : heard (some c) = [c] := if_pos ⟨hacc, ha2⟩
        rw [hbuf] at ha2
        rw [hheard, (route_motionFrame ha2).1 k, hq.watch k, ← hbuf]
        rfl
      · have hheard : heard (some c) = [] := if_neg fun h => ha2 h.2
        rw [hbuf] at ha2
        rw [hheard, route_otherFrame ha2 k, hq.watch k]
        rfl
    · have hheard : heard (some c) = [] := if_neg fun h => by rw [hacc] at h; exact Bool.false_ne_true h.1
      rw [hheard, hq.watch k]
      rfl

theorem watch_feed (bytes : List UInt8) (s : CGyroDevice) (k : Sensor) :
    Sensor.watch (feed s bytes) k = run (Watch.next 65536) (Sensor.watch s k) (reads k s bytes) := by
  unfold reads motionCalls
  induction bytes generalizing s with
  | nil => rfl
  | cons b bytes ih =>
    show Sensor.watch (feed (decodeFrame s b).1 bytes) k = _
    rw [ih, watch_decode, calls, List.flatMap_cons, List.map_append, run_append]

/-- From zero counters, a counter holds the repeats at the end modulo 65536. -/
theorem counter_feed (bytes : List UInt8) {s : CGyroDevice} (hzero : ∀ k : Sensor, k.counter s = 0) (k : Sensor) :
    k.counter (feed s bytes) = streak (k.prev s) (reads k s bytes) % 65536 := by
  have h := congrArg Watch.count (watch_feed bytes s k)
  have hstart : Sensor.watch s k = ⟨k.prev s, 0⟩ := by rw [Sensor.watch, hzero k]
  rw [hstart, count_run] at h
  exact h

/-! ## The alarm -/

/-- After every accepted motion frame of the stream the alarm is raised exactly when one
    of the triples has been repeated more often in a row than its limit. -/
def AlarmExact (s : CGyroDevice) (stream : List UInt8) : Prop :=
  ∀ xs c, xs <+: stream → Dispatches s xs c → c.buf 1 = 0xa2 →
    (c.repowered = true ↔ ∃ k : Sensor, Repeated k.limit (readings k s xs))

/-- The repeats in a row with which the stream ends. -/
def repeats (s : CGyroDevice) (xs : List UInt8) (k : Sensor) : Nat := streak (k.prev s) (reads k s xs)

/-- With a triple past its limit, one is past it in 16 bits. -/
def InWidth (s : CGyroDevice) (xs : List UInt8) : Prop :=
  (∃ k : Sensor, k.limit < repeats s xs k) → ∃ k : Sensor, k.limit < repeats s xs k % 65536

/-- The alarm goes by the counters as the frame leaves them. -/
theorem alarm_counters {s : CGyroDevice} {xs : List UInt8} {c : Call} (h : Dispatches s xs c) (ha2 : c.buf 1 = 0xa2) :
    c.repowered = true ↔ ∃ k : Sensor, k.limit < k.counter (feed s xs) := by
  obtain ⟨p, b, rfl, hc, hacc⟩ := h
  rcases decode_some hc with ⟨-, t, -, hbuf, hstate, hpower⟩ | ⟨hno, -⟩
  · rw [hbuf] at ha2
    have hcount : ∀ k : Sensor, k.counter (feed s (p ++ [b])) = k.counter (route t).1 := by
      intro k
      rw [feed_snoc]
      exact congrArg Watch.count (hstate.watch k)
    simp only [hpower, (route_motionFrame ha2).2, hcount]
  · rw [hacc] at hno
    cases hno

theorem due_iff (s : CGyroDevice) (xs : List UInt8) :
    (∃ k : Sensor, Repeated k.limit (readings k s xs)) ↔ ∃ k : Sensor, k.limit < repeats s xs k :=
  exists_congr fun k => (lt_streak_iff (k.prev s) (reads k s xs) k.limit).symm

theorem alarm_repeats {s : CGyroDevice} (hzero : ∀ k : Sensor, k.counter s = 0) {xs : List UInt8} {c : Call}
    (h : Dispatches s xs c) (ha2 : c.buf 1 = 0xa2) :
    c.repowered = true ↔ ∃ k : Sensor, k.limit < repeats s xs k % 65536 := by
  rw [alarm_counters h ha2]
  refine exists_congr fun k => ?_
  rw [counter_feed xs hzero k]
  rfl

theorem alarm_exact_iff (s : CGyroDevice) (hacc : s.accFreezeCounter = 0) (hgyro : s.gyroFreezeCounter = 0)
    (stream : List UInt8) :
    AlarmExact s stream ↔
      ∀ xs c, xs <+: stream → Dispatches s xs c → c.buf 1 = 0xa2 → InWidth s xs := by
  have hzero : ∀ k : Sensor, k.counter s = 0 := by
    intro k
    cases k with
    | acc => exact hacc
    | gyro => exact hgyro
  refine forall₅_congr fun xs c _ h ha2 => ?_
  rw [due_iff, alarm_repeats hzero h ha2]
  constructor
  · intro heq
    exact heq.mpr
  · intro hwidth
    refine ⟨?_, hwidth⟩
    rintro ⟨k, hk⟩
    exact ⟨k, Nat.lt_of_lt_of_le hk (Nat.mod_le _ _)⟩

/-- A stream too short for a counter to wrap. -/
theorem inWidth_of_short {s : CGyroDevice} {xs : List UInt8} (h : (motionCalls s xs).length < 65536) : InWidth s xs := by
  rintro ⟨k, hk⟩
  have hle : repeats s xs k ≤ (motionCalls s xs).length := by
    have hstreak := streak_le (k.prev s) (reads k s xs)
    unfold reads at hstreak
    rwa [List.length_map] at hstreak
  exact ⟨k, by rwa [Nat.mod_eq_of_lt (by omega)]⟩

theorem calls_length (s : CGyroDevice) (bytes : List UInt8) : (calls s bytes).length = bytes.length := by
  induction bytes generalizing s with
  | nil => rfl
  | cons b bytes ih => rw [calls, List.length_cons, ih, List.length_cons]

theorem motionCalls_length (s : CGyroDevice) (bytes : List UInt8) : (motionCalls s bytes).length ≤ bytes.length := by
  unfold motionCalls
  rw [← calls_length s bytes]
  induction calls s bytes with
  | nil => exact Nat.le_refl 0
  | cons c cs ih =>
    have hone : (heard c).length ≤ 1 := by
      unfold heard
      split
      · split <;> simp
      · simp
    rw [List.flatMap_cons, List.length_append, List.length_cons]
    omega

/-- One frame of a gyro at rest. -/
theorem alarm_exact_resting : AlarmExact default (0xa5 :: 0x5a :: resting.frame) := by
  refine (alarm_exact_iff default rfl rfl _).mpr ?_
  intro xs c hxs _ _
  have hlen : xs.length ≤ 24 := hxs.length_le
  have hcalls := motionCalls_length default xs
  exact inWidth_of_short (by omega)

/-! ## A freeze that lasts -/

theorem feed_index {s : CGyroDevice} (hs : s.rxWrIndex ≤ 49) (body : List UInt8) :
    (feed s (0xa5 :: 0x5a :: body)).rxWrIndex ≤ 49 := sim_index_le (sim_feed body (sim_header s hs))

theorem dispatches_append {s : CGyroDevice} (p : List UInt8) {q : List UInt8} {c : Call}
    (h : Dispatches (feed s p) q c) : Dispatches s (p ++ q) c := by
  obtain ⟨r, b, rfl, hc, hacc⟩ := h
  refine ⟨p ++ r, b, by simp, ?_, hacc⟩
  rw [feed_append]
  exact hc

theorem reads_append (k : Sensor) (s : CGyroDevice) (p q : List UInt8) :
    reads k s (p ++ q) = reads k s p ++ reads k (feed s p) q := by
  unfold reads motionCalls
  rw [calls_append, List.flatMap_append, List.map_append]

/-- The triples of a motion frame. -/
def Motion.triple (v : Motion) : Sensor → Int × Int × Int
  | .acc => (v.ax, v.ay, v.az)
  | .gyro => (v.gx, v.gy, v.gz)

theorem Motion.read_eq {v : Motion} (hv : ∀ x ∈ v.values, x.natAbs ≤ 32767) {m : Int → UInt8}
    (hm : ∀ i, i < 22 → m (i : Nat) = v.frame.getD i 0) (k : Sensor) : k.read m = v.triple k := by
  have hfield : ∀ i, i < 9 → field m ((2 + 2 * i : Nat) : Int) = v.values.getD i 0 :=
    fun i hi => Motion.field_eq hv hm hi
  cases k with
  | acc => exact Prod.ext (hfield 0 (by decide)) (Prod.ext (hfield 1 (by decide)) (hfield 2 (by decide)))
  | gyro => exact Prod.ext (hfield 3 (by decide)) (Prod.ext (hfield 4 (by decide)) (hfield 5 (by decide)))

/-- A motion frame is heard once, on its last byte. -/
theorem motionCalls_frame {s : CGyroDevice} (hs : s.rxWrIndex ≤ 49) {v : Motion} (hpair : ¬ [0xa5, 0x5a] <:+: v.frame) :
    ∃ c, Dispatches s (0xa5 :: 0x5a :: v.frame) c ∧ c.buf 1 = 0xa2 ∧ motionCalls s (0xa5 :: 0x5a :: v.frame) = [c] ∧
      ∀ i, i < 22 → c.buf (i : Nat) = v.frame.getD i 0 := by
  obtain ⟨q, hq⟩ : ∃ q, v.frame = q ++ [0xaa] := ⟨v.bytes ++ [UInt8.ofNat (v.bytes.map UInt8.toNat).sum], by
    rw [List.append_assoc]
    rfl⟩
  have hframe := v.isFrame
  rw [hq] at hframe hpair
  obtain ⟨hquiet, c, hc, hacc, hbuf⟩ := calls_body s hs hframe.three_le hframe.le_fifty hframe.lengthByte
    hframe.checksum (by decide) (by decide) hpair
  rw [← hq] at hbuf
  have hbuf22 : ∀ i, i < 22 → c.buf (i : Nat) = v.frame.getD i 0 := hbuf
  have ha2 : c.buf 1 = 0xa2 := hbuf22 1 (by decide)
  have hfeed : feed s (0xa5 :: 0x5a :: q) = feed (feed s [0xa5, 0x5a]) q := feed_append s [0xa5, 0x5a] q
  refine ⟨c, ⟨0xa5 :: 0x5a :: q, 0xaa, by rw [hq]; rfl, by rw [hfeed]; exact hc, hacc⟩, ha2, ?_, hbuf22⟩
  have hcalls : calls s (0xa5 :: 0x5a :: v.frame) = [none, none] ++ (List.replicate q.length none ++ [some c]) := by
    have hlast : calls (feed (feed s [0xa5, 0x5a]) q) [0xaa] = [some c] := by rw [← hc]; rfl
    rw [hq, show 0xa5 :: 0x5a :: (q ++ [0xaa]) = [0xa5, 0x5a] ++ (q ++ [0xaa]) from rfl, calls_append, calls_append,
      hquiet, calls_header, hlast]
  have hnone : (List.replicate q.length none).flatMap heard = [] := by
    rw [List.flatMap_eq_nil_iff]
    intro x hx
    rw [(List.mem_replicate.mp hx).2]
    rfl
  have hheard : heard (some c) = [c] := if_pos ⟨hacc, ha2⟩
  unfold motionCalls
  rw [hcalls, List.flatMap_append, List.flatMap_append, hnone, List.nil_append, List.flatMap_singleton, hheard]
  rfl

theorem reads_frame {s : CGyroDevice} (hs : s.rxWrIndex ≤ 49) {v : Motion} (hv : ∀ x ∈ v.values, x.natAbs ≤ 32767)
    (hpair : ¬ [0xa5, 0x5a] <:+: v.frame) (k : Sensor) : reads k s (0xa5 :: 0x5a :: v.frame) = [v.triple k] := by
  obtain ⟨c, -, -, hcalls, hbuf⟩ := motionCalls_frame hs hpair
  unfold reads
  rw [hcalls, List.map_singleton, Motion.read_eq hv hbuf]

/-- The same motion frame `n` times. -/
def frames (n : Nat) (v : Motion) : List UInt8 := (List.replicate n (0xa5 :: 0x5a :: v.frame)).flatten

theorem reads_frames {v : Motion} (hv : ∀ x ∈ v.values, x.natAbs ≤ 32767) (hpair : ¬ [0xa5, 0x5a] <:+: v.frame) (k : Sensor)
    (n : Nat) {s : CGyroDevice} (hs : s.rxWrIndex ≤ 49) :
    (feed s (frames n v)).rxWrIndex ≤ 49 ∧ reads k s (frames n v) = List.replicate n (v.triple k) := by
  induction n generalizing s with
  | zero => exact ⟨hs, rfl⟩
  | succ n ih =>
    obtain ⟨hindex, hreads⟩ := ih (feed_index hs v.frame)
    unfold frames at *
    rw [List.replicate_succ, List.flatten_cons, feed_append, reads_append, reads_frame hs hv hpair k, hreads]
    exact ⟨hindex, rfl⟩

/-- After a multiple of 65536 repeats no alarm is raised. -/
theorem freeze_unnoticed {s : CGyroDevice} (hs : s.rxWrIndex ≤ 49) (hzero : ∀ k : Sensor, k.counter s = 0) {v : Motion}
    (hv : ∀ x ∈ v.values, x.natAbs ≤ 32767) (hpair : ¬ [0xa5, 0x5a] <:+: v.frame)
    (hnew : ∀ k : Sensor, k.prev s ≠ v.triple k) {n : Nat} (hn : n % 65536 = 0) (hlong : 100 < n) :
    ¬ AlarmExact s (frames (n + 1) v) := by
  intro h
  have hrepeats : ∀ k : Sensor, repeats s (frames (n + 1) v) k = n := by
    intro k
    unfold repeats
    rw [(reads_frames hv hpair k (n + 1) hs).2, streak_replicate (hnew k)]
  obtain ⟨c, hc, ha2, -, -⟩ := motionCalls_frame (reads_frames hv hpair .acc n hs).1 hpair
  have hsplit : frames (n + 1) v = frames n v ++ (0xa5 :: 0x5a :: v.frame) := by
    unfold frames
    rw [List.replicate_succ', List.flatten_append, List.flatten_singleton]
  have hlast : Dispatches s (frames (n + 1) v) c := by
    rw [hsplit]
    exact dispatches_append _ hc
  have hdue := h _ c (List.prefix_refl _) hlast ha2
  rw [due_iff, alarm_repeats hzero hlast ha2] at hdue
  obtain ⟨k, hk⟩ := hdue.mpr ⟨.acc, by rw [hrepeats]; exact hlong⟩
  rw [hrepeats, hn] at hk
  exact Nat.not_lt_zero _ hk

/-- A gyro that has stopped, for 65537 frames. -/
theorem long_freeze_unnoticed : (default : CGyroDevice).accFreezeCounter = 0 ∧
    (default : CGyroDevice).gyroFreezeCounter = 0 ∧ ¬ AlarmExact default (frames 65537 resting) := by
  refine ⟨rfl, rfl, ?_⟩
  have hzero : ∀ k : Sensor, k.counter default = 0 := fun k => by cases k <;> rfl
  have hnew : ∀ k : Sensor, k.prev default ≠ resting.triple k := by
    intro k
    cases k <;> decide
  exact freeze_unnoticed (Nat.zero_le _) hzero (by decide) (by decide) hnew (by decide) (by decide)

end SeerDIOBoard.Gyro.Receiver
