/-
  SeerDIOBoard.Dispatch.Midpoint — the offset `ntpCalcHandler` takes from a reply.

  The server stamps the query somewhere between the time it was sent and the time the reply
  came in, and the best guess is the midpoint of the two. `stopRecorder` takes half of the
  delay for it, in 32 bits: the time the query was sent is missing from the offset.

  `midpoint_iff`: the offset is right, and nothing overflows on the way to it, exactly when
  the query was sent at the clock's zero, the delay fits into 32 bits of nanoseconds, and
  half of it is not more than the server's time since 1970.
-/

import SeerDIOBoard.Dispatch.TimeSync

namespace SeerDIOBoard.Dispatch

open Lib.Bytes

/-! ## Half of the delay -/

/-- In 32 bits seconds and microseconds borrow and carry like one number. -/
theorem ofNat_ns (t : Timeval) : UInt32.ofNat t.ns = t.tv_sec * 1000000000 + t.tv_usec * 1000 := by
  unfold Timeval.ns
  rw [UInt32.ofNat_add, UInt32.ofNat_mul, UInt32.ofNat_mul, UInt32.ofNat_toNat, UInt32.ofNat_toNat]
  rfl

theorem toNat_midTime {start stop : Timeval} (h : start.ns ≤ stop.ns) :
    (midTime start stop).toNat = (stop.ns - start.ns) % 2 ^ 32 / 2 := by
  have hdiff : (stop.tv_sec - start.tv_sec) * 1000000000 + (stop.tv_usec - start.tv_usec) * 1000 =
      UInt32.ofNat (stop.ns - start.ns) := by
    rw [UInt32.ofNat_sub h, ofNat_ns, ofNat_ns]
    grind
  unfold midTime
  rw [hdiff, UInt32.toNat_toUInt64, UInt32.toNat_shiftRight, UInt32.toNat_ofNat', Nat.shiftRight_eq_div_pow]
  rfl

/-! ## One query and its reply -/

theorem query_startTime {c : CSntpSynchr} (hidle : c.isWaitingForReply = false) (env : NtpEnv) :
    (c.ntpQueryHandler env).2.startTime_ns = env.now := by
  have hsend : ¬ c.isWaitingForReply = true := by rw [hidle]; exact Bool.false_ne_true
  unfold CSntpSynchr.ntpQueryHandler CSntpSynchr.startRecorder
  rw [if_neg hsend, if_neg hsend]
  dsimp only
  split
  · split
    · rfl
    · rfl
  · rfl

/-- `ntpCalcHandler` on the payload of a reply the dispatcher has received. -/
def calcReply (c : CSntpSynchr) (env : NtpEnv) (inbuf : Nat → UInt8) (bytes : List UInt8) : Int × CSntpSynchr :=
  c.ntpCalcHandler env (fun i => recvfrom inbuf bytes (4 + i)) (ntpRequestMsgLen - 4)

/-- The offset `c` has for a query sent at `start` and answered at `stop`: added to the
    midpoint it is the server's time since 1970, and no product, sum or difference of the
    way to it overflows. -/
structure Midpoint (start stop : Timeval) (bytes : List UInt8) (c : CSntpSynchr) : Prop where
  offset : |(c.baseOffset_ns.toNat : Int) + (start.ns + stop.ns : Int) / 2 -
    (serverTime_ns bytes - m1900To1970.toNat)| ≤ 1
  seconds : (stop.tv_sec.toNat - start.tv_sec.toNat) * 1000000000 < 2 ^ 32
  microseconds : |((stop.tv_usec.toNat : Int) - start.tv_usec.toNat) * 1000| < 2 ^ 31
  delay : stop.ns - start.ns < 2 ^ 32
  fraction : bigEndian ((bytes.drop 36).take 4) * 1000000000 < 2 ^ 64
  stamp : serverTime_ns bytes < 2 ^ 64
  difference : c.midTime_ns.toNat + m1900To1970.toNat ≤ serverTime_ns bytes

theorem fraction_lt {bytes : List UInt8} (h : bytes.length = ntpRequestMsgLen) :
    bigEndian ((bytes.drop 36).take 4) * 1000000000 < 2 ^ 64 := by
  have h48 : bytes.length = 48 := h
  have hlo : ((bytes.drop 36).take 4).length = 4 := by simp [h48]
  have hlt := bigEndian_lt ((bytes.drop 36).take 4)
  rw [hlo] at hlt
  omega

theorem serverTime_ns_lt {bytes : List UInt8} (h : bytes.length = ntpRequestMsgLen) :
    serverTime_ns bytes < 2 ^ 64 := by
  have h48 : bytes.length = 48 := h
  have hhi : ((bytes.drop 32).take 4).length = 4 := by simp [h48]
  have hlo : ((bytes.drop 36).take 4).length = 4 := by simp [h48]
  have hsec := bigEndian_lt ((bytes.drop 32).take 4)
  have hfrac := bigEndian_lt ((bytes.drop 36).take 4)
  rw [hhi] at hsec
  rw [hlo] at hfrac
  have hbelow : bigEndian ((bytes.drop 36).take 4) * 1000000000 / 2 ^ 32 < 1000000000 :=
    Nat.div_lt_of_lt_mul (by omega)
  unfold serverTime_ns
  dsimp only
  generalize bigEndian ((bytes.drop 36).take 4) * 1000000000 / 2 ^ 32 = frac at hbelow ⊢
  omega

/-- Where the differences do not wrap, the offset is what it is in exact arithmetic. -/
theorem toNat_offset {stamp : Nat} {mid epoch : UInt64} (hstamp : stamp < 2 ^ 64)
    (h : mid.toNat + epoch.toNat ≤ stamp) :
    (UInt64.ofNat stamp - mid - epoch).toNat = stamp - mid.toNat - epoch.toNat := by
  have hnat : (UInt64.ofNat stamp).toNat = stamp := by
    rw [UInt64.toNat_ofNat', Nat.mod_eq_of_lt hstamp]
  have hmid : mid ≤ UInt64.ofNat stamp := by
    rw [UInt64.le_iff_toNat_le, hnat]
    omega
  have hfirst : (UInt64.ofNat stamp - mid).toNat = stamp - mid.toNat := by
    rw [UInt64.toNat_sub_of_le _ _ hmid, hnat]
  have hsecond : epoch ≤ UInt64.ofNat stamp - mid := by
    rw [UInt64.le_iff_toNat_le, hfirst]
    omega
  rw [UInt64.toNat_sub_of_le _ _ hsecond, hfirst]

/-- Half of the delay is the midpoint only for a query sent at the clock's zero. -/
theorem midpoint_offset {start stop stamp epoch : Nat} (hle : start ≤ stop)
    (h : (stop - start) / 2 + epoch ≤ stamp) :
    |((stamp - (stop - start) / 2 - epoch : Nat) : Int) + (start + stop : Int) / 2 - (stamp - epoch)| = start := by
  have hsum : ((stamp - (stop - start) / 2 - epoch : Nat) : Int) + (start + stop : Int) / 2 - (stamp - epoch) = start := by
    omega
  rw [hsum, Int.abs_natCast]

theorem toNat_midTime_of_lt {start stop : Timeval} (hle : start.ns ≤ stop.ns) (hlt : stop.ns - start.ns < 2 ^ 32) :
    (midTime start stop).toNat = (stop.ns - start.ns) / 2 := by
  rw [toNat_midTime hle, Nat.mod_eq_of_lt hlt]

theorem midpoint_iff (c : CSntpSynchr) (hidle : c.isWaitingForReply = false) (request reply : NtpEnv)
    (hrequest : request.now.tv_usec.toNat < 1000000) (hreply : reply.now.tv_usec.toNat < 1000000)
    (hle : request.now.ns ≤ reply.now.ns) (inbuf : Nat → UInt8) (bytes : List UInt8)
    (hlen : bytes.length = ntpRequestMsgLen) :
    (calcReply (c.ntpQueryHandler request).2 reply inbuf bytes).1 = 0 ∧
      (Midpoint request.now reply.now bytes (calcReply (c.ntpQueryHandler request).2 reply inbuf bytes).2 ↔
        request.now.ns = 0 ∧ reply.now.ns < 2 ^ 32 ∧
          reply.now.ns / 2 + m1900To1970.toNat ≤ serverTime_ns bytes) := by
  refine ⟨rfl, ?_⟩
  have hstart := query_startTime hidle request
  have hoffset := ntpCalcHandler_offset (c.ntpQueryHandler request).2 reply inbuf hlen
  have hmid : (calcReply (c.ntpQueryHandler request).2 reply inbuf bytes).2.midTime_ns =
      midTime (c.ntpQueryHandler request).2.startTime_ns reply.now := rfl
  change (calcReply (c.ntpQueryHandler request).2 reply inbuf bytes).2.baseOffset_ns = _ at hoffset
  rw [hstart] at hoffset hmid
  have hstamp := serverTime_ns_lt hlen
  constructor
  · intro h
    have hdelay := h.delay
    have hdiff := h.difference
    rw [hmid] at hdiff
    have hsmall := toNat_midTime_of_lt hle hdelay
    rw [hsmall] at hdiff
    have hright := h.offset
    rw [hoffset, toNat_offset hstamp (by rw [hsmall]; exact hdiff), hsmall, midpoint_offset hle hdiff] at hright
    -- the clock is a multiple of a microsecond
    have hzero : request.now.ns = 0 := by
      unfold Timeval.ns at hright ⊢
      omega
    rw [hzero, Nat.sub_zero] at hdelay hdiff
    exact ⟨hzero, hdelay, hdiff⟩
  · intro ⟨hzero, hlt, hpast⟩
    have hsmall := toNat_midTime_of_lt hle (by omega)
    have hdiff : (reply.now.ns - request.now.ns) / 2 + m1900To1970.toNat ≤ serverTime_ns bytes := by
      rw [hzero, Nat.sub_zero]
      exact hpast
    refine ⟨?_, ?_, ?_, by omega, fraction_lt hlen, hstamp, by rw [hmid, hsmall]; exact hdiff⟩
    · rw [hoffset, toNat_offset hstamp (by rw [hsmall]; exact hdiff), hsmall, midpoint_offset hle hdiff, hzero]
      decide
    · have hsec : reply.now.tv_sec.toNat * 1000000000 ≤ reply.now.ns := Nat.le_add_right _ _
      exact (Nat.mul_le_mul_right _ (Nat.sub_le _ _)).trans_lt (hsec.trans_lt hlt)
    · rw [abs_lt]
      omega

/-! ## A reply after 0.2 s -/

/-- The server's time is 2023-05-05, 22:21:52. -/
def stampedReply : List UInt8 := [0x24, 0x02, 0x00, 0xec] ++ List.replicate 28 0 ++ [0xe8, 0, 0, 0] ++ List.replicate 12 0

def envAt (now : Timeval) : NtpEnv := { sinPort := ntpPort, now := now, socket := 3 }

theorem midpoint_from_zero :
    Midpoint ⟨0, 0⟩ ⟨0, 200000⟩ stampedReply
      (calcReply (idleSntp.ntpQueryHandler (envAt ⟨0, 0⟩)).2 (envAt ⟨0, 200000⟩) (fun _ => 0) stampedReply).2 :=
  (midpoint_iff idleSntp rfl (envAt ⟨0, 0⟩) (envAt ⟨0, 200000⟩) (by decide) (by decide) (by decide) (fun _ => 0)
    stampedReply rfl).2.mpr (by decide +kernel)

theorem midpoint_after_tenSeconds :
    (calcReply (idleSntp.ntpQueryHandler (envAt ⟨10, 0⟩)).2 (envAt ⟨10, 200000⟩) (fun _ => 0) stampedReply).1 = 0 ∧
      ¬ Midpoint ⟨10, 0⟩ ⟨10, 200000⟩ stampedReply
        (calcReply (idleSntp.ntpQueryHandler (envAt ⟨10, 0⟩)).2 (envAt ⟨10, 200000⟩) (fun _ => 0) stampedReply).2 :=
  ⟨rfl, fun h => absurd h.offset (by decide +kernel)⟩

end SeerDIOBoard.Dispatch
