/-
  SeerDIOBoard.Pb.Stream — the streams of nanopb and the numbers on them
  (protobuffer/pb_encode.c, protobuffer/pb_decode.c).

  An input stream is the bytes it still has; a call that fails leaves a stream behind as
  well, and `pb_decode_tag` looks at it. An output stream is a buffer with a size, or the
  sizing stream, which only counts. `Error` is the check that failed; `uint32_t` and
  `uint64_t` are `Nat` with the cut written out.

  - `decodeVarint_iff`, `decodeVarint32_iff`: what the two readers take, and what for.
  - `decodeVarint32_eq`: the quick case of the second one is a case of its loop.
  - `varint32_narrows_iff`: the second one is the first one on five bytes at most, so that a
    negative number, which is sent in ten, is none of its.
  - `decodeVarint_varintBytes`, `unzigzag_zigzag`: what is written is read back.

  Left out: `errmsg`, of which only the first one set is kept, and streams with a callback
  of their own, which the board has not.
-/

import SeerDIOBoard.Lib.Bytes
import SeerDIOBoard.Lib.Varint

namespace SeerDIOBoard.Pb

open Lib.Bytes Lib.Varint

inductive Error where
  | endOfStream
  | varintOverflow
  | invalidWireType
  | parentStreamTooShort
  | arrayOverflow
  | integerTooLarge
  | streamFull
  | submsgSizeChanged
  deriving DecidableEq, Repr

/-! ## Input -/

/-- `pb_istream_t`: the `bytes_left` bytes from `state` on. -/
abbrev Istream := List UInt8

/-- What a reader returns, with the stream it leaves. -/
inductive Read (α : Type) where
  | ok (a : α) (stream : Istream)
  | error (e : Error) (stream : Istream)
  deriving DecidableEq, Repr

/-- `pb_read`. -/
def read (count : Nat) (s : Istream) : Read (List UInt8) :=
  if s.length < count then .error .endOfStream s else .ok (s.take count) (s.drop count)

/-- The loop that ors a varint together in a word of `bits` bits. -/
def varintLoop (bits : Nat) : Nat → Nat → Istream → Read Nat
  | bitpos, _, [] => if bits ≤ bitpos then .error .varintOverflow [] else .error .endOfStream []
  | bitpos, result, byte :: s =>
    if bits ≤ bitpos then .error .varintOverflow (byte :: s)
    else
      let result := result ||| ((byte &&& 0x7F).toNat <<< bitpos % 2 ^ bits)
      if byte &&& 0x80 = 0 then .ok result s else varintLoop bits (bitpos + 7) result s

def decodeVarint (s : Istream) : Read Nat := varintLoop 64 0 0 s

def decodeVarint32 : Istream → Read Nat
  | [] => .error .endOfStream []
  | byte :: s =>
    -- the quick case, a value of one byte
    if byte &&& 0x80 = 0 then .ok byte.toNat s else varintLoop 32 7 (byte &&& 0x7F).toNat s

/-- `int64_t`, and the like. -/
def signed (bits v : Nat) : Int := Int.bmod v (2 ^ bits)

/-- `pb_decode_svarint` on the number read: `~(value >> 1)` or `value >> 1`. -/
def unzigzag (value : Nat) : Int :=
  if value % 2 = 1 then signed 64 (2 ^ 64 - 1 - value >>> 1) else signed 64 (value >>> 1)

def skipVarint : Istream → Read Unit
  | [] => .error .endOfStream []
  | byte :: s => if byte &&& 0x80 = 0 then .ok () s else skipVarint s

/-- `pb_read` without a buffer. -/
def skip (count : Nat) (s : Istream) : Read Unit :=
  if s.length < count then .error .endOfStream s else .ok () (s.drop count)

def skipString (s : Istream) : Read Unit :=
  match decodeVarint32 s with
  | .error e s => .error e s
  | .ok length s => skip length s

def wtVarint : Nat := 0
def wt64bit : Nat := 1
def wtString : Nat := 2
def wt32bit : Nat := 5

def skipField (wireType : Nat) (s : Istream) : Read Unit :=
  if wireType = wtVarint then skipVarint s
  else if wireType = wt64bit then skip 8 s
  else if wireType = wtString then skipString s
  else if wireType = wt32bit then skip 4 s
  else .error .invalidWireType s

inductive TagRead where
  | tag (wireType tag : Nat) (stream : Istream)
  | eof (stream : Istream)
  | error (e : Error) (stream : Istream)
  deriving DecidableEq, Repr

def decodeTag (s : Istream) : TagRead :=
  match decodeVarint32 s with
  | .error e s => if s.length = 0 then .eof s else .error e s
  | .ok temp s => if temp = 0 then .eof s else .tag (temp &&& 7) (temp >>> 3) s

/-- The substream, and the stream as `pb_close_string_substream` makes it; until then the
    stream stands where the substream starts. -/
def makeStringSubstream (s : Istream) : Read (Istream × Istream) :=
  match decodeVarint32 s with
  | .error e s => .error e s
  | .ok size s =>
    if s.length < size then .error .parentStreamTooShort s
    else .ok (s.take size, s.drop size) (s.take (s.length - size))

/-! ## Output -/

/-- `pb_ostream_t`: `PB_OSTREAM_SIZING`, or a buffer. -/
inductive Ostream where
  | sizing (bytesWritten : Nat)
  | buffer (maxSize : Nat) (written : List UInt8)
  deriving DecidableEq, Repr

def Ostream.bytesWritten : Ostream → Nat
  | .sizing n => n
  | .buffer _ written => written.length

/-- A function that writes: the error it returns with, if any, and the stream it leaves. -/
abbrev Encoder := Ostream → Option Error × Ostream

def Encoder.skip : Encoder := fun stream => (none, stream)

/-- `if (!f) return false; g`. -/
def Encoder.andThen (f g : Encoder) : Encoder := fun stream =>
  match f stream with
  | (none, stream) => g stream
  | failed => failed

/-- `pb_write`. -/
def write (buf : List UInt8) : Encoder
  | .sizing n => (none, .sizing (n + buf.length))
  | .buffer maxSize written =>
    if written.length + buf.length > maxSize then (some .streamFull, .buffer maxSize written)
    else (none, .buffer maxSize (written ++ buf))

/-- The loop that fills the buffer of ten bytes, from some byte of it on. -/
def varintBuffer : Nat → Nat → List UInt8
  | 0, _ => []
  | room + 1, value =>
    if value = 0 then [] else UInt8.ofNat (value % 128 ||| 0x80) :: varintBuffer room (value >>> 7)

/-- The bytes `pb_encode_varint` writes. -/
def varintBytes (value : Nat) : List UInt8 :=
  if value ≤ 0x7F then [UInt8.ofNat value]
  else
    let buffer := varintBuffer 10 value
    -- the top bit goes from the last byte
    buffer.modify (buffer.length - 1) (· &&& 0x7F)

def encodeVarint (value : Nat) : Encoder := write (varintBytes value)

/-- `(uint64_t)value`. -/
def unsigned (value : Int) : Nat := (value % 2 ^ 64).toNat

/-- `~((uint64_t)value << 1)` or `(uint64_t)value << 1`. -/
def zigzag (value : Int) : Nat :=
  if value < 0 then 2 ^ 64 - 1 - unsigned value <<< 1 % 2 ^ 64 else unsigned value <<< 1 % 2 ^ 64

def encodeTag (wireType fieldNumber : Nat) : Encoder := encodeVarint (fieldNumber <<< 3 ||| wireType)

/-! ## Reading varints -/

theorem varintLoop_closed {bits : Nat} {w : List UInt8} (hw : Closed w) (s : Istream) :
    ∀ {bitpos result : Nat}, result < 2 ^ bitpos → bitpos + 7 * (w.length - 1) < bits →
      varintLoop bits bitpos result (w ++ s) = .ok ((result + 2 ^ bitpos * groups w) % 2 ^ bits) s := by
  induction w with
  | nil => exact absurd rfl hw.ne_nil
  | cons b w ih =>
    intro bitpos result hres hfit
    rw [List.length_cons, Nat.add_sub_cancel] at hfit
    have hbit : ¬ bits ≤ bitpos := by omega
    have hor := or_group hres (Nat.le_of_lt (Nat.not_le.mp hbit)) (b.toNat % 128)
    rw [List.cons_append, varintLoop, if_neg hbit, toNat_and_low]
    dsimp only
    rw [hor]
    by_cases hb : b.toNat < 128
    · have hnil : w = [] := by
        by_contra hne
        have hgo := ((closed_cons hne).mp hw).1
        omega
      rw [if_pos ((and_top_eq_zero b).mpr hb), hnil]
      simp [groups]
    · have hw' : Closed w := hw.tail (by omega)
      have hpos := List.length_pos_of_ne_nil hw'.ne_nil
      have hnext : (result + 2 ^ bitpos * (b.toNat % 128)) % 2 ^ bits < 2 ^ (bitpos + 7) := by
        have hg : b.toNat % 128 + 1 ≤ 128 := Nat.mod_lt _ (by decide)
        calc (result + 2 ^ bitpos * (b.toNat % 128)) % 2 ^ bits ≤ result + 2 ^ bitpos * (b.toNat % 128) := Nat.mod_le _ _
          _ < 2 ^ bitpos * (b.toNat % 128 + 1) := by rw [Nat.mul_succ]; omega
          _ ≤ 2 ^ bitpos * 128 := Nat.mul_le_mul_left _ hg
          _ = 2 ^ (bitpos + 7) := by rw [Nat.pow_add]
      rw [if_neg (fun h => hb ((and_top_eq_zero b).mp h)), ih hw' hnext (by omega), Nat.mod_add_mod, groups, Nat.pow_add]
      congr 2
      ring

theorem varintLoop_open {bits : Nat} (n : Nat) :
    ∀ {bitpos result : Nat} {s : Istream}, (∀ b, b ∈ s.take n → 128 ≤ b.toNat) → bits ≤ bitpos + 7 * n →
      bitpos + 7 * n < bits + 7 → ∃ e, varintLoop bits bitpos result s = .error e (s.drop n) := by
  induction n with
  | zero =>
    intro bitpos result s _ hfull _
    cases s <;> exact ⟨.varintOverflow, by rw [varintLoop, if_pos (by omega)]; rfl⟩
  | succ n ih =>
    intro bitpos result s hopen hfull hroom
    cases s with
    | nil => exact ⟨.endOfStream, by rw [varintLoop, if_neg (by omega)]; rfl⟩
    | cons b s =>
      rw [List.take_succ_cons] at hopen
      have hb : ¬ b &&& 0x80 = 0 := by
        have hgo := hopen b List.mem_cons_self
        rw [and_top_eq_zero]
        omega
      rw [varintLoop, if_neg (by omega)]
      dsimp only
      rw [if_neg hb]
      exact ih (fun x hx => hopen x (List.mem_cons_of_mem b hx)) (by omega) (by omega)

theorem decodeVarint32_eq (s : Istream) : decodeVarint32 s = varintLoop 32 0 0 s := by
  cases s with
  | nil => rfl
  | cons b s =>
    have hb := b.toNat_lt
    have hfirst : 0 ||| ((b &&& 0x7F).toNat <<< 0 % 2 ^ 32) = (b &&& 0x7F).toNat := by
      rw [toNat_and_low, Nat.zero_or, Nat.shiftLeft_zero, Nat.mod_eq_of_lt (by omega)]
    rw [varintLoop, if_neg (by decide)]
    dsimp only
    rw [hfirst, decodeVarint32]
    by_cases htop : b &&& 0x80 = 0
    · have hlow : (b &&& 0x7F).toNat = b.toNat := by
        rw [toNat_and_low, Nat.mod_eq_of_lt ((and_top_eq_zero b).mp htop)]
      rw [if_pos htop, if_pos htop, hlow]
    · rw [if_neg htop, if_neg htop]

theorem decodeVarint_closed {w : List UInt8} (hw : Closed w) (hlen : w.length ≤ 10) (s : Istream) :
    decodeVarint (w ++ s) = .ok (groups w % 2 ^ 64) s := by
  have hloop := @varintLoop_closed 64 w hw s 0 0 Nat.one_pos (by omega)
  rwa [Nat.zero_add, Nat.pow_zero, Nat.one_mul] at hloop

theorem decodeVarint32_closed {w : List UInt8} (hw : Closed w) (hlen : w.length ≤ 5) (s : Istream) :
    decodeVarint32 (w ++ s) = .ok (groups w % 2 ^ 32) s := by
  have hloop := @varintLoop_closed 32 w hw s 0 0 Nat.one_pos (by omega)
  rwa [Nat.zero_add, Nat.pow_zero, Nat.one_mul, ← decodeVarint32_eq] at hloop

theorem decodeVarint_open {s : Istream} (h : ∀ b, b ∈ s.take 10 → 128 ≤ b.toNat) :
    ∃ e, decodeVarint s = .error e (s.drop 10) := varintLoop_open 10 h (by decide) (by decide)

theorem decodeVarint32_open {s : Istream} (h : ∀ b, b ∈ s.take 5 → 128 ≤ b.toNat) :
    ∃ e, decodeVarint32 s = .error e (s.drop 5) := by
  rw [decodeVarint32_eq]
  exact varintLoop_open 5 h (by decide) (by decide)

/-- A reader takes the closed words of at most `n` bytes, when it does and nothing else. -/
theorem read_iff {f : Istream → Read Nat} {n m : Nat}
    (hclosed : ∀ {w : List UInt8}, Closed w → w.length ≤ n → ∀ s, f (w ++ s) = .ok (groups w % m) s)
    (hopen : ∀ {s : Istream}, (∀ b, b ∈ s.take n → 128 ≤ b.toNat) → ∃ e, f s = .error e (s.drop n))
    (s rest : Istream) (v : Nat) :
    f s = .ok v rest ↔ ∃ w, s = w ++ rest ∧ Closed w ∧ w.length ≤ n ∧ v = groups w % m := by
  constructor
  · intro h
    rcases closed_or_open n s with ⟨w, r, rfl, hw, hlen⟩ | hall
    · rw [hclosed hw hlen] at h
      cases h
      exact ⟨w, rfl, hw, hlen, rfl⟩
    · obtain ⟨e, he⟩ := hopen hall
      rw [he] at h
      cases h
  · rintro ⟨w, rfl, hw, hlen, rfl⟩
    exact hclosed hw hlen rest

theorem decodeVarint_iff (s rest : Istream) (v : Nat) :
    decodeVarint s = .ok v rest ↔ ∃ w, s = w ++ rest ∧ Closed w ∧ w.length ≤ 10 ∧ v = groups w % 2 ^ 64 :=
  read_iff decodeVarint_closed decodeVarint_open s rest v

theorem decodeVarint32_iff (s rest : Istream) (v : Nat) :
    decodeVarint32 s = .ok v rest ↔ ∃ w, s = w ++ rest ∧ Closed w ∧ w.length ≤ 5 ∧ v = groups w % 2 ^ 32 :=
  read_iff decodeVarint32_closed decodeVarint32_open s rest v

/-- The short reader is the long one cut to 32 bits, on five bytes at most. -/
theorem varint32_narrows_iff (s rest : Istream) (v : Nat) :
    decodeVarint32 s = .ok v rest ↔ ∃ u, decodeVarint s = .ok u rest ∧ v = u % 2 ^ 32 ∧ s.length ≤ rest.length + 5 := by
  have hcut : ∀ n : Nat, n % 2 ^ 64 % 2 ^ 32 = n % 2 ^ 32 := fun n => by omega
  constructor
  · intro h
    obtain ⟨w, rfl, hw, hlen, rfl⟩ := (decodeVarint32_iff s rest v).mp h
    refine ⟨groups w % 2 ^ 64, (decodeVarint_iff _ _ _).mpr ⟨w, rfl, hw, by omega, rfl⟩, (hcut (groups w)).symm, ?_⟩
    rw [List.length_append]
    omega
  · rintro ⟨u, hu, rfl, hlen⟩
    obtain ⟨w, rfl, hw, -, rfl⟩ := (decodeVarint_iff s rest u).mp hu
    rw [List.length_append] at hlen
    exact (decodeVarint32_iff _ _ _).mpr ⟨w, rfl, hw, by omega, hcut (groups w)⟩

/-! ## Writing varints -/

theorem toNat_or_top (v : Nat) : (UInt8.ofNat (v % 128 ||| 0x80)).toNat = v % 128 + 128 := by
  have hor := Nat.two_pow_add_eq_or_of_lt (show v % 128 < 2 ^ 7 by omega) 1
  have hval : v % 128 ||| 0x80 = v % 128 + 128 := by
    rw [Nat.or_comm]
    show 2 ^ 7 * 1 ||| v % 128 = _
    rw [← hor]
    omega
  rw [hval, UInt8.toNat_ofNat']
  omega

/-- Cleared on top of its last byte, the buffer is a closed word of the value, of as many
    groups as the value needs. -/
theorem varintBuffer_spec (n : Nat) :
    ∀ {room v : Nat}, n ≤ room → v ≠ 0 → v < 128 ^ n →
      ∃ w b, varintBuffer room v = w ++ [b] ∧ Closed (w ++ [b &&& 0x7F]) ∧ groups (w ++ [b &&& 0x7F]) = v ∧ w.length < n := by
  induction n with
  | zero =>
    intro room v _ hv hlt
    rw [Nat.pow_zero] at hlt
    omega
  | succ n ih =>
    intro room v hroom hv hlt
    obtain ⟨room, rfl⟩ : ∃ k, room = k + 1 := ⟨room - 1, by omega⟩
    have hshift : v >>> 7 = v / 128 := Nat.shiftRight_eq_div_pow v 7
    rw [varintBuffer, if_neg hv, hshift]
    generalize hb : UInt8.ofNat (v % 128 ||| 0x80) = b
    have htop : b.toNat = v % 128 + 128 := by rw [← hb, toNat_or_top]
    by_cases hlast : v / 128 = 0
    · -- the last group: nothing follows
      have hlow : (b &&& 0x7F).toNat = v := by rw [toNat_and_low, htop]; omega
      have hnil : varintBuffer room (v / 128) = [] := by
        cases room with
        | zero => rfl
        | succ room => rw [varintBuffer, if_pos hlast]
      refine ⟨[], b, by rw [hnil]; rfl, ?_, ?_, Nat.succ_pos n⟩
      · show (b &&& 0x7F).toNat < 128
        omega
      · show (b &&& 0x7F).toNat % 128 + 128 * 0 = v
        omega
    · have hdiv : v / 128 < 128 ^ n := by
        rw [Nat.div_lt_iff_lt_mul (by decide)]
        rwa [Nat.pow_succ] at hlt
      obtain ⟨w, x, hw, hclosed, hval, hlen⟩ := ih (Nat.le_of_succ_le_succ hroom) hlast hdiv
      refine ⟨b :: w, x, by rw [hw]; rfl, ?_, ?_, Nat.succ_lt_succ hlen⟩
      · exact (closed_cons hclosed.ne_nil).mpr ⟨by omega, hclosed⟩
      · rw [List.cons_append, groups, hval, htop]
        omega

theorem modify_concat {α : Type} (w : List α) (b : α) (f : α → α) : (w ++ [b]).modify w.length f = w ++ [f b] := by
  induction w with
  | nil => rfl
  | cons x w ih => rw [List.cons_append, List.length_cons, List.modify_succ_cons, ih, List.cons_append]

/-- What is written is a closed word of the value. -/
theorem varintBytes_spec {v n : Nat} (hn : n ≤ 10) (hpos : 0 < n) (hv : v < 128 ^ n) :
    Closed (varintBytes v) ∧ groups (varintBytes v) = v ∧ (varintBytes v).length ≤ n := by
  unfold varintBytes
  by_cases hsmall : v ≤ 0x7F
  · have hbyte : (UInt8.ofNat v).toNat = v := by
      rw [UInt8.toNat_ofNat']
      omega
    rw [if_pos hsmall]
    refine ⟨?_, ?_, hpos⟩
    · show (UInt8.ofNat v).toNat < 128
      omega
    · show (UInt8.ofNat v).toNat % 128 + 128 * 0 = v
      omega
  · obtain ⟨w, b, hw, hclosed, hval, hlen⟩ := varintBuffer_spec n hn (show v ≠ 0 by omega) hv
    rw [if_neg hsmall, hw]
    dsimp only
    rw [List.length_append, List.length_singleton, Nat.add_sub_cancel, modify_concat]
    refine ⟨hclosed, hval, ?_⟩
    rw [List.length_append, List.length_singleton]
    exact hlen

theorem lt_groups_of_lt_two_pow {v : Nat} (h : v < 2 ^ 64) : v < 128 ^ 10 := Nat.lt_of_lt_of_le h (by decide)

theorem closed_varintBytes {v : Nat} (h : v < 2 ^ 64) : Closed (varintBytes v) :=
  (varintBytes_spec (by decide) (by decide) (lt_groups_of_lt_two_pow h)).1

theorem groups_varintBytes {v : Nat} (h : v < 2 ^ 64) : groups (varintBytes v) = v :=
  (varintBytes_spec (by decide) (by decide) (lt_groups_of_lt_two_pow h)).2.1

theorem varintBytes_ne_nil {v : Nat} (h : v < 2 ^ 64) : varintBytes v ≠ [] := (closed_varintBytes h).ne_nil

theorem length_varintBytes {v n : Nat} (hn : n ≤ 10) (hpos : 0 < n) (hv : v < 128 ^ n) : (varintBytes v).length ≤ n :=
  (varintBytes_spec hn hpos hv).2.2

theorem decodeVarint_varintBytes {v : Nat} (h : v < 2 ^ 64) (s : Istream) : decodeVarint (varintBytes v ++ s) = .ok v s := by
  rw [decodeVarint_closed (closed_varintBytes h) (length_varintBytes (by decide) (by decide) (lt_groups_of_lt_two_pow h)),
    groups_varintBytes h, Nat.mod_eq_of_lt h]

theorem decodeVarint32_varintBytes {v : Nat} (h : v < 2 ^ 32) (s : Istream) :
    decodeVarint32 (varintBytes v ++ s) = .ok v s := by
  have h64 : v < 2 ^ 64 := by omega
  have hlen : (varintBytes v).length ≤ 5 := length_varintBytes (by decide) (by decide) (Nat.lt_of_lt_of_le h (by decide))
  rw [decodeVarint32_closed (closed_varintBytes h64) hlen, groups_varintBytes h64, Nat.mod_eq_of_lt h]

/-! ## Signs -/

theorem unsigned_lt (v : Int) : unsigned v < 2 ^ 64 := by
  unfold unsigned
  omega

theorem signed_unsigned {v : Int} (hlo : -2 ^ 63 ≤ v) (hhi : v < 2 ^ 63) : signed 64 (unsigned v) = v := by
  unfold signed unsigned
  rw [Int.toNat_of_nonneg (Int.emod_nonneg v (by decide)), Int.bmod_def]
  omega

theorem zigzag_lt (v : Int) : zigzag v < 2 ^ 64 := by
  unfold zigzag
  split
  · omega
  · exact Nat.mod_lt _ (by decide)

theorem unzigzag_zigzag {v : Int} (hlo : -2 ^ 63 ≤ v) (hhi : v < 2 ^ 63) : unzigzag (zigzag v) = v := by
  have hshift : unsigned v <<< 1 = unsigned v * 2 := Nat.shiftLeft_eq _ 1
  unfold unzigzag zigzag
  rw [hshift]
  by_cases hneg : v < 0
  · have hval : (unsigned v : Int) = v + 2 ^ 64 := by
      unfold unsigned
      omega
    rw [if_pos hneg, if_pos (by omega), Nat.shiftRight_eq_div_pow]
    unfold signed
    rw [Int.bmod_def]
    omega
  · have hval : (unsigned v : Int) = v := by
      unfold unsigned
      omega
    rw [if_neg hneg, if_neg (by omega), Nat.shiftRight_eq_div_pow]
    unfold signed
    rw [Int.bmod_def]
    omega

end SeerDIOBoard.Pb
