/-
  SeerDIOBoard.Pb.Encode — the encoder (`pb_encode`, protobuffer/pb_encode.c).

  A submessage is encoded twice, on the sizing stream for its length and then on a
  substream of exactly that length; an array of varints is sized the same way first.
  `msgBytes` is the message as a plain sequence of bytes.

  - `pbEncode_writes`: on any stream the encoder writes `msgBytes`, or as much of it as
    goes in, and counts the same bytes on the sizing stream (`Writes`).
  - `pbEncode_buffer_iff`: it succeeds exactly when the message fits.
  - `length_msgBytes_le`: how long a message of a table gets.
-/

import SeerDIOBoard.Pb.Fields
import SeerDIOBoard.Pb.Stream

namespace SeerDIOBoard.Pb

open Lib.Bytes Lib.Varint

/-! ## The encoder -/

/-- What a field encoder of `PB_ENCODERS` hands to `pb_write`. -/
def scalarBytes (ty : PbType) (src : ty.Mem) : List UInt8 :=
  match ty.ltype with
  | .varint => varintBytes (unsigned src.toInt)
  | .uvarint => varintBytes src.toNat
  | .svarint => varintBytes (zigzag src.toInt)
  | .fixed32 => leBytes 4 src.toNat
  | .fixed64 => leBytes 8 src.toNat

def encodeScalar (ty : PbType) (src : ty.Mem) : Encoder := write (scalarBytes ty src)

/-- The wire type in `pb_encode_tag_for_field`. -/
def wireTypeOf (ty : PbType) : Nat :=
  match ty.ltype with
  | .varint | .uvarint | .svarint => wtVarint
  | .fixed32 => wt32bit
  | .fixed64 => wt64bit

def encodeItems (ty : PbType) : List ty.Mem → Encoder
  | [] => Encoder.skip
  | v :: vs => (encodeScalar ty v).andThen (encodeItems ty vs)

/-- The total size of a packed array. -/
def packedSize (ty : PbType) (items : List ty.Mem) : Nat :=
  match ty.ltype with
  | .fixed32 => 4 * items.length
  | .fixed64 => 8 * items.length
  | _ => (encodeItems ty items (.sizing 0)).2.bytesWritten

/-- `pb_encode_varint` of the size, and then the content: just counted on the sizing stream. -/
def encodeSized (size : Nat) (content : Encoder) : Encoder :=
  (encodeVarint size).andThen fun stream =>
    match stream with
    | .sizing n => (none, .sizing (n + size))
    | .buffer maxSize written => content (.buffer maxSize written)

def encodeArray (tag : Nat) (ty : PbType) (items : List ty.Mem) : Encoder :=
  if items = [] then Encoder.skip
  else (encodeTag wtString tag).andThen (encodeSized (packedSize ty items) (encodeItems ty items))

/-- The second pass, on a substream that holds `size` bytes. -/
def encodeSubstream (size : Nat) (encode : Encoder) : Encoder
  | .sizing n => (none, .sizing n)
  | .buffer maxSize written =>
    if written.length + size > maxSize then (some .streamFull, .buffer maxSize written)
    else
      match encode (.buffer size []) with
      | (status, .sizing n) => (status, .sizing n)
      | (status, .buffer _ substream) =>
        let stream := Ostream.buffer maxSize (written ++ substream)
        if substream.length ≠ size then (some (status.getD .submsgSizeChanged), stream) else (status, stream)

/-- `pb_encode_submessage`, with `encode` the `pb_encode` of the submessage. -/
def encodeSubmessage (encode : Encoder) : Encoder := fun stream =>
  match encode (.sizing 0) with
  | (some e, _) => (some e, stream)
  | (none, substream) =>
    encodeSized substream.bytesWritten (encodeSubstream substream.bytesWritten encode) stream

def pbEncode : (fs : Fields) → fs.Msg → Encoder
  | .last, _ => Encoder.skip
  | .singular tag ty rest, (v, m) =>
    (if v = 0 then Encoder.skip else (encodeTag (wireTypeOf ty) tag).andThen (encodeScalar ty v)).andThen (pbEncode rest m)
  | .repeated tag ty _ rest, (r, m) => (encodeArray tag ty r.items).andThen (pbEncode rest m)
  | .message tag sub rest, (v, m) =>
    (if sub.isDefault v = true then Encoder.skip
      else (encodeTag wtString tag).andThen (encodeSubmessage (pbEncode sub v))).andThen (pbEncode rest m)

/-! ## The bytes of a message -/

def tagBytes (wireType tag : Nat) : List UInt8 := varintBytes (tag <<< 3 ||| wireType)

/-- With its length in front. -/
def sized (content : List UInt8) : List UInt8 := varintBytes content.length ++ content

def itemsBytes (ty : PbType) (items : List ty.Mem) : List UInt8 := items.flatMap (scalarBytes ty)

def arrayBytes (tag : Nat) (ty : PbType) (items : List ty.Mem) : List UInt8 :=
  if items = [] then [] else tagBytes wtString tag ++ sized (itemsBytes ty items)

def msgBytes : (fs : Fields) → fs.Msg → List UInt8
  | .last, _ => []
  | .singular tag ty rest, (v, m) =>
    (if v = 0 then [] else tagBytes (wireTypeOf ty) tag ++ scalarBytes ty v) ++ msgBytes rest m
  | .repeated tag ty _ rest, (r, m) => arrayBytes tag ty r.items ++ msgBytes rest m
  | .message tag sub rest, (v, m) =>
    (if sub.isDefault v = true then [] else tagBytes wtString tag ++ sized (msgBytes sub v)) ++ msgBytes rest m

/-! ## What an encoder writes -/

/-- On every stream `f` writes `bs`: counted, whole, or up to where the buffer is full. -/
structure Writes (f : Encoder) (bs : List UInt8) : Prop where
  sizing : ∀ n, f (.sizing n) = (none, .sizing (n + bs.length))
  fits : ∀ maxSize written, written.length + bs.length ≤ maxSize →
    f (.buffer maxSize written) = (none, .buffer maxSize (written ++ bs))
  full : ∀ maxSize written, written.length ≤ maxSize → maxSize < written.length + bs.length →
    ∃ p, p <+: bs ∧ written.length + p.length ≤ maxSize ∧
      f (.buffer maxSize written) = (some .streamFull, .buffer maxSize (written ++ p))

theorem skip_writes : Writes Encoder.skip [] where
  sizing _ := rfl
  fits _ written _ := by rw [List.append_nil]; rfl
  full _ _ hle hlt := absurd hlt (Nat.not_lt.mpr hle)

theorem write_writes (buf : List UInt8) : Writes (write buf) buf where
  sizing _ := rfl
  fits _ _ h := by rw [write, if_neg (Nat.not_lt.mpr h)]
  full _ written hle hlt := ⟨[], List.nil_prefix, hle, by rw [write, if_pos hlt, List.append_nil]⟩

namespace Writes

variable {f g : Encoder} {bs cs : List UInt8}

theorem andThen (hf : Writes f bs) (hg : Writes g cs) : Writes (f.andThen g) (bs ++ cs) where
  sizing n := by
    rw [Encoder.andThen, hf.sizing]
    dsimp only
    rw [hg.sizing, List.length_append, Nat.add_assoc]
  fits maxSize written h := by
    rw [List.length_append] at h
    rw [Encoder.andThen, hf.fits maxSize written (by omega)]
    dsimp only
    rw [hg.fits maxSize (written ++ bs) (by rw [List.length_append]; omega), List.append_assoc]
  full maxSize written hle hlt := by
    rw [List.length_append] at hlt
    rw [Encoder.andThen]
    by_cases hroom : written.length + bs.length ≤ maxSize
    · obtain ⟨p, hp, hlen, he⟩ := hg.full maxSize (written ++ bs) (by rwa [List.length_append])
        (by rw [List.length_append]; omega)
      rw [List.length_append] at hlen
      refine ⟨bs ++ p, (List.prefix_append_right_inj bs).mpr hp, by rw [List.length_append]; omega, ?_⟩
      rw [hf.fits maxSize written hroom]
      dsimp only
      rw [he, List.append_assoc]
    · obtain ⟨p, hp, hlen, he⟩ := hf.full maxSize written hle (by omega)
      refine ⟨p, hp.trans (List.prefix_append bs cs), hlen, ?_⟩
      rw [he]

/-- The size and the content, whose size it is. -/
theorem sized (hf : ∀ maxSize written, written.length + bs.length ≤ maxSize →
      f (.buffer maxSize written) = (none, .buffer maxSize (written ++ bs)))
    (hfull : ∀ maxSize written, written.length ≤ maxSize → maxSize < written.length + bs.length →
      ∃ p, p <+: bs ∧ written.length + p.length ≤ maxSize ∧
        f (.buffer maxSize written) = (some .streamFull, .buffer maxSize (written ++ p))) :
    Writes (encodeSized bs.length f) (Pb.sized bs) :=
  (write_writes (varintBytes bs.length)).andThen
    { sizing := fun _ => rfl
      fits := fun maxSize written h => hf maxSize written h
      full := fun maxSize written hle hlt => hfull maxSize written hle hlt }

end Writes

theorem encodeItems_writes (ty : PbType) (items : List ty.Mem) : Writes (encodeItems ty items) (itemsBytes ty items) := by
  induction items with
  | nil => exact skip_writes
  | cons v vs ih => exact (write_writes (scalarBytes ty v)).andThen ih

theorem leBytes_length (n : Nat) (v : Int) : (leBytes n v).length = n := by
  induction n generalizing v with
  | zero => rfl
  | succ n ih => rw [leBytes, List.length_cons, ih]

/-- The three ways to the size of an array agree. -/
theorem packedSize_eq (ty : PbType) (items : List ty.Mem) : packedSize ty items = (itemsBytes ty items).length := by
  have hsizing : (encodeItems ty items (.sizing 0)).2.bytesWritten = (itemsBytes ty items).length := by
    rw [(encodeItems_writes ty items).sizing]
    exact Nat.zero_add _
  have hfixed : ∀ n, (∀ v, (scalarBytes ty v).length = n) → (itemsBytes ty items).length = n * items.length := by
    intro n hn
    unfold itemsBytes
    rw [List.length_flatMap, show (fun v => (scalarBytes ty v).length) = fun _ => n from funext hn, List.map_const',
      List.sum_replicate_nat, Nat.mul_comm]
  unfold packedSize
  split
  case h_1 hl => rw [hfixed 4 fun v => by rw [scalarBytes, hl]; exact leBytes_length 4 _]
  case h_2 hl => rw [hfixed 8 fun v => by rw [scalarBytes, hl]; exact leBytes_length 8 _]
  case h_3 => exact hsizing

theorem encodeArray_writes (tag : Nat) (ty : PbType) (items : List ty.Mem) :
    Writes (encodeArray tag ty items) (arrayBytes tag ty items) := by
  unfold encodeArray arrayBytes
  split
  · exact skip_writes
  · have hitems := encodeItems_writes ty items
    rw [packedSize_eq]
    exact (write_writes (tagBytes wtString tag)).andThen (Writes.sized hitems.fits hitems.full)

/-- The second pass writes what the first one has counted, or nothing. -/
theorem encodeSubmessage_writes {encode : Encoder} {bs : List UInt8} (h : Writes encode bs) :
    Writes (encodeSubmessage encode) (sized bs) := by
  have hstep : encodeSubmessage encode = encodeSized bs.length (encodeSubstream bs.length encode) := by
    funext stream
    have hsize : (Ostream.sizing (0 + bs.length)).bytesWritten = bs.length := Nat.zero_add _
    rw [encodeSubmessage, h.sizing]
    dsimp only
    rw [hsize]
  rw [hstep]
  refine Writes.sized ?_ ?_
  · intro maxSize written hroom
    rw [encodeSubstream, if_neg (Nat.not_lt.mpr hroom), h.fits bs.length [] (by simp)]
    simp
  · intro maxSize written hle hlt
    exact ⟨[], List.nil_prefix, hle, by rw [encodeSubstream, if_pos hlt, List.append_nil]⟩

theorem pbEncode_writes (fs : Fields) (m : fs.Msg) : Writes (pbEncode fs m) (msgBytes fs m) := by
  induction fs with
  | last => exact skip_writes
  | singular tag ty rest ih =>
    obtain ⟨v, m⟩ := m
    refine Writes.andThen ?_ (ih m)
    split
    · exact skip_writes
    · exact (write_writes (tagBytes (wireTypeOf ty) tag)).andThen (write_writes (scalarBytes ty v))
  | repeated tag ty n rest ih =>
    obtain ⟨r, m⟩ := m
    exact (encodeArray_writes tag ty r.items).andThen (ih m)
  | message tag sub rest ihs ih =>
    obtain ⟨v, m⟩ := m
    refine Writes.andThen ?_ (ih m)
    split
    · exact skip_writes
    · exact (write_writes (tagBytes wtString tag)).andThen (encodeSubmessage_writes (ihs v))

/-- The encoder on a buffer, from its start. -/
theorem pbEncode_buffer_iff (fs : Fields) (m : fs.Msg) (maxSize : Nat) (w : List UInt8) :
    pbEncode fs m (.buffer maxSize []) = (none, .buffer maxSize w) ↔ w = msgBytes fs m ∧ w.length ≤ maxSize := by
  have hwrites := pbEncode_writes fs m
  by_cases hroom : (msgBytes fs m).length ≤ maxSize
  · rw [hwrites.fits maxSize [] (by simpa using hroom), List.nil_append]
    constructor
    · intro h
      cases h
      exact ⟨rfl, hroom⟩
    · rintro ⟨rfl, -⟩
      rfl
  · obtain ⟨p, -, -, he⟩ := hwrites.full maxSize [] (Nat.zero_le _) (by simpa using hroom)
    rw [he]
    refine iff_of_false (fun h => by cases h) ?_
    rintro ⟨rfl, hlen⟩
    exact hroom hlen

/-- On any buffer: the encoder writes the front of the message and nothing behind the buffer,
    and succeeds exactly when what the sizing stream counts is there to be had. -/
theorem pbEncode_in_buffer (fs : Fields) (m : fs.Msg) {maxSize : Nat} {written : List UInt8} (h : written.length ≤ maxSize) :
    ∃ p, (pbEncode fs m (.buffer maxSize written)).2 = .buffer maxSize (written ++ p) ∧ p <+: msgBytes fs m ∧
      written.length + p.length ≤ maxSize ∧
      ((pbEncode fs m (.buffer maxSize written)).1 = none ↔
        written.length + (pbEncode fs m (.sizing 0)).2.bytesWritten ≤ maxSize) ∧
      ((pbEncode fs m (.buffer maxSize written)).1 = none ↔ p = msgBytes fs m) := by
  have hwrites := pbEncode_writes fs m
  have hsize : (pbEncode fs m (.sizing 0)).2.bytesWritten = (msgBytes fs m).length := by
    rw [hwrites.sizing]
    exact Nat.zero_add _
  rw [hsize]
  by_cases hroom : written.length + (msgBytes fs m).length ≤ maxSize
  · rw [hwrites.fits maxSize written hroom]
    exact ⟨msgBytes fs m, rfl, List.prefix_rfl, hroom, iff_of_true rfl hroom, iff_of_true rfl rfl⟩
  · obtain ⟨p, hp, hlen, he⟩ := hwrites.full maxSize written h (by omega)
    rw [he]
    refine ⟨p, rfl, hp, hlen, iff_of_false (by simp) hroom, iff_of_false (by simp) ?_⟩
    intro heq
    subst heq
    exact hroom hlen

/-- 150 in field 1 takes three bytes: on two, the tag alone gets in. -/
theorem pbEncode_in_buffer_two :
    ∃ p, (pbEncode (.singular 1 .int32 .last) (150, ()) (.buffer 2 [])).2 = .buffer 2 ([] ++ p) ∧
      p <+: msgBytes (.singular 1 .int32 .last) (150, ()) ∧ ([] : List UInt8).length + p.length ≤ 2 ∧
      ((pbEncode (.singular 1 .int32 .last) (150, ()) (.buffer 2 [])).1 = none ↔
        ([] : List UInt8).length + (pbEncode (.singular 1 .int32 .last) (150, ()) (.sizing 0)).2.bytesWritten ≤ 2) ∧
      ((pbEncode (.singular 1 .int32 .last) (150, ()) (.buffer 2 [])).1 = none ↔
        p = msgBytes (.singular 1 .int32 .last) (150, ())) :=
  pbEncode_in_buffer (.singular 1 .int32 .last) (150, ()) (Nat.zero_le 2)

/-! ## How long a message gets -/

/-- The bytes of a number up to `n`. -/
def lengthLen (n : Nat) : Nat := if n < 128 then 1 else if n < 16384 then 2 else 10

theorem varintBuffer_length (room v : Nat) : (varintBuffer room v).length ≤ room := by
  induction room generalizing v with
  | zero => exact Nat.le_refl 0
  | succ room ih =>
    rw [varintBuffer]
    split
    · exact Nat.zero_le _
    · exact Nat.succ_le_succ (ih _)

theorem length_varintBytes_le_ten (v : Nat) : (varintBytes v).length ≤ 10 := by
  unfold varintBytes
  split
  · exact Nat.le_add_left 1 9
  · dsimp only
    rw [List.length_modify]
    exact varintBuffer_length 10 v

theorem length_varintBytes_le {v n : Nat} (h : v ≤ n) : (varintBytes v).length ≤ lengthLen n := by
  unfold lengthLen
  split
  · exact length_varintBytes (by decide) Nat.one_pos (by omega)
  · split
    · exact length_varintBytes (by decide) Nat.two_pos (by omega)
    · exact length_varintBytes_le_ten v

namespace Fields

/-- Every scalar of the message is as `ok` says. -/
def All (ok : (ty : PbType) → ty.Mem → Prop) : (fs : Fields) → fs.Msg → Prop
  | last, _ => True
  | singular _ ty rest, (v, m) => ok ty v ∧ rest.All ok m
  | repeated _ ty _ rest, (r, m) => (∀ v, v ∈ r.items → ok ty v) ∧ rest.All ok m
  | message _ sub rest, (v, m) => sub.All ok v ∧ rest.All ok m

/-- The size of a message whose values have the lengths `len`. -/
def maxSize (len : PbType → Nat) : Fields → Nat
  | last => 0
  | singular tag ty rest => lengthLen (8 * tag + 7) + len ty + rest.maxSize len
  | repeated tag ty n rest => lengthLen (8 * tag + 7) + (lengthLen (n * len ty) + n * len ty) + rest.maxSize len
  | message tag sub rest =>
    lengthLen (8 * tag + 7) + (lengthLen (sub.maxSize len) + sub.maxSize len) + rest.maxSize len

theorem all_of_forall {ok : (ty : PbType) → ty.Mem → Prop} (h : ∀ ty v, ok ty v) (fs : Fields) (m : fs.Msg) :
    fs.All ok m := by
  induction fs with
  | last => trivial
  | singular tag ty rest ih => exact ⟨h ty m.1, ih m.2⟩
  | repeated tag ty n rest ih => exact ⟨fun v _ => h ty v, ih m.2⟩
  | message tag sub rest ihs ih => exact ⟨ihs m.1, ih m.2⟩

end Fields

theorem tagBytes_length {wireType : Nat} (h : wireType < 8) (tag : Nat) :
    (tagBytes wireType tag).length ≤ lengthLen (8 * tag + 7) := by
  refine length_varintBytes_le ?_
  have hor := Nat.two_pow_add_eq_or_of_lt (i := 3) h tag
  rw [Nat.shiftLeft_eq, Nat.mul_comm, ← hor]
  omega

theorem wireTypeOf_lt (ty : PbType) : wireTypeOf ty < 8 := by
  unfold wireTypeOf
  split <;> decide

theorem sized_length {bs : List UInt8} {n : Nat} (h : bs.length ≤ n) : (sized bs).length ≤ lengthLen n + n := by
  rw [sized, List.length_append]
  exact Nat.add_le_add (length_varintBytes_le h) h

theorem itemsBytes_length {ty : PbType} {items : List ty.Mem} {k : Nat} (h : ∀ v, v ∈ items → (scalarBytes ty v).length ≤ k) :
    (itemsBytes ty items).length ≤ items.length * k := by
  induction items with
  | nil => exact Nat.zero_le _
  | cons v vs ih =>
    have hv := h v List.mem_cons_self
    have hvs := ih fun x hx => h x (List.mem_cons_of_mem v hx)
    rw [itemsBytes, List.flatMap_cons, List.length_append, List.length_cons, Nat.succ_mul]
    unfold itemsBytes at hvs
    omega

theorem length_msgBytes_le {len : PbType → Nat} {fs : Fields} {m : fs.Msg}
    (h : fs.All (fun ty v => (scalarBytes ty v).length ≤ len ty) m) : (msgBytes fs m).length ≤ fs.maxSize len := by
  induction fs with
  | last => exact Nat.le_refl 0
  | singular tag ty rest ih =>
    obtain ⟨v, m⟩ := m
    rw [msgBytes, List.length_append, Fields.maxSize]
    refine Nat.add_le_add ?_ (ih h.2)
    split
    · exact Nat.zero_le _
    · rw [List.length_append]
      exact Nat.add_le_add (tagBytes_length (wireTypeOf_lt ty) tag) h.1
  | repeated tag ty n rest ih =>
    obtain ⟨r, m⟩ := m
    rw [msgBytes, List.length_append, Fields.maxSize]
    refine Nat.add_le_add ?_ (ih h.2)
    unfold arrayBytes
    split
    · exact Nat.zero_le _
    · rw [List.length_append]
      refine Nat.add_le_add (tagBytes_length (by decide) tag) (sized_length ?_)
      exact Nat.le_trans (itemsBytes_length h.1) (Nat.mul_le_mul_right _ r.items_le)
  | message tag sub rest ihs ih =>
    obtain ⟨v, m⟩ := m
    rw [msgBytes, List.length_append, Fields.maxSize]
    refine Nat.add_le_add ?_ (ih h.2)
    split
    · exact Nat.zero_le _
    · rw [List.length_append]
      exact Nat.add_le_add (tagBytes_length (by decide) tag) (sized_length (ihs h.1))

theorem scalarBytes_length_le_ten (ty : PbType) (v : ty.Mem) : (scalarBytes ty v).length ≤ 10 := by
  unfold scalarBytes
  split
  · exact length_varintBytes_le_ten _
  · exact length_varintBytes_le_ten _
  · exact length_varintBytes_le_ten _
  · rw [leBytes_length]; decide
  · rw [leBytes_length]; decide

/-! ## Tables that can be encoded -/

namespace Fields

/-- As a `pb_field_t` of one-byte members holds it: tags from 1 to 255, no two alike, arrays
    of at most 255 entries, and submessages whose length is a `uint32_t`. -/
def WF : Fields → Prop
  | last => True
  | singular tag _ rest => (0 < tag ∧ tag < 256 ∧ tag ∉ rest.tags) ∧ rest.WF
  | repeated tag _ n rest => (0 < tag ∧ tag < 256 ∧ tag ∉ rest.tags) ∧ n < 256 ∧ rest.WF
  | message tag sub rest =>
    (0 < tag ∧ tag < 256 ∧ tag ∉ rest.tags) ∧ (sub.maxSize (fun _ => 10) < 2 ^ 32 ∧ sub.WF) ∧ rest.WF

instance decidableWF : (fs : Fields) → Decidable fs.WF
  | last => .isTrue trivial
  | singular tag _ rest =>
    have := decidableWF rest
    inferInstanceAs (Decidable ((0 < tag ∧ tag < 256 ∧ tag ∉ rest.tags) ∧ rest.WF))
  | repeated tag _ n rest =>
    have := decidableWF rest
    inferInstanceAs (Decidable ((0 < tag ∧ tag < 256 ∧ tag ∉ rest.tags) ∧ n < 256 ∧ rest.WF))
  | message tag sub rest =>
    have := decidableWF sub
    have := decidableWF rest
    inferInstanceAs (Decidable ((0 < tag ∧ tag < 256 ∧ tag ∉ rest.tags) ∧
      (sub.maxSize (fun _ => 10) < 2 ^ 32 ∧ sub.WF) ∧ rest.WF))

end Fields

/-- Whatever the memory holds. -/
theorem length_msgBytes_lt {fs : Fields} (h : fs.maxSize (fun _ => 10) < 2 ^ 32) (m : fs.Msg) :
    (msgBytes fs m).length < 2 ^ 32 :=
  Nat.lt_of_le_of_lt (length_msgBytes_le (Fields.all_of_forall scalarBytes_length_le_ten fs m)) h

end SeerDIOBoard.Pb
