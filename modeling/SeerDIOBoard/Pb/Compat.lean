/-
  SeerDIOBoard.Pb.Compat — a message encoded with one table and decoded with another.

  Two ends of a connection may be built from different versions of a `.proto`. `Compat`
  pairs the fields both tables have, the bounds of their arrays left free, and lists what
  only one of them has. `merge` is what decoding does to a message that has been there
  before: a field with a value is set, an array appended to, a submessage merged into, and
  nothing comes out where an array has no room.

  - `decode_merge`: decoding an encoded message is `merge`, in front of any stream.
  - `pbDecode_versions_iff`: any number of messages, of any versions, one behind the other, and
    when they are refused.
  - `pbDecode_msgBytes`: with one table at both ends the message arrives as `shown` has it,
    and as it is exactly where no submessage looks like a default without being one
    (`round_trip_iff`).
-/

import SeerDIOBoard.Pb.Records

namespace SeerDIOBoard.Pb

open Fields

/-- How the decoder's table `fs` goes with the encoder's table `gs`. -/
inductive Compat : Fields → Fields → Type where
  | last : Compat last last
  | singular (tag : Nat) (ty : PbType) {fs gs : Fields} (e : Compat fs gs) : Compat (singular tag ty fs) (singular tag ty gs)
  | repeated (tag : Nat) (ty : PbType) (n k : Nat) {fs gs : Fields} (e : Compat fs gs) :
    Compat (repeated tag ty n fs) (repeated tag ty k gs)
  | message (tag : Nat) (sub sub' : Fields) {fs gs : Fields} (es : Compat sub sub') (e : Compat fs gs) :
    Compat (message tag sub fs) (message tag sub' gs)
  /-- Fields the decoder does not know. -/
  | newSingular (tag : Nat) (ty : PbType) {fs gs : Fields} (h : tag ∉ fs.tags) (e : Compat fs gs) :
    Compat fs (singular tag ty gs)
  | newRepeated (tag : Nat) (ty : PbType) (k : Nat) {fs gs : Fields} (h : tag ∉ fs.tags) (e : Compat fs gs) :
    Compat fs (repeated tag ty k gs)
  | newMessage (tag : Nat) (sub' : Fields) {fs gs : Fields} (h : tag ∉ fs.tags) (e : Compat fs gs) :
    Compat fs (message tag sub' gs)
  /-- Fields the encoder does not know. -/
  | oldSingular (tag : Nat) (ty : PbType) {fs gs : Fields} (h : tag ∉ gs.tags) (e : Compat fs gs) :
    Compat (singular tag ty fs) gs
  | oldRepeated (tag : Nat) (ty : PbType) (n : Nat) {fs gs : Fields} (h : tag ∉ gs.tags) (e : Compat fs gs) :
    Compat (repeated tag ty n fs) gs
  | oldMessage (tag : Nat) (sub : Fields) {fs gs : Fields} (h : tag ∉ gs.tags) (e : Compat fs gs) :
    Compat (message tag sub fs) gs

namespace Compat

def refl : (fs : Fields) → Compat fs fs
  | .last => .last
  | .singular tag ty rest => .singular tag ty (refl rest)
  | .repeated tag ty n rest => .repeated tag ty n n (refl rest)
  | .message tag sub rest => .message tag sub sub (refl sub) (refl rest)

def append {α : Type} {n k : Nat} (r : Repeated α n) (q : Repeated α k) : Option (Repeated α n) :=
  if h : r.items.length + q.items.length ≤ n then some (r.append q h) else none

/-- What is in `m₀`, with `m` decoded on top of it. -/
def merge : {fs gs : Fields} → Compat fs gs → fs.Msg → gs.Msg → Option fs.Msg
  | _, _, last, _, _ => some ()
  | _, _, singular _ _ e, (v₀, m₀), (v, m) => (merge e m₀ m).map fun m₁ => (if v = 0 then v₀ else v, m₁)
  | _, _, repeated _ _ _ _ e, (r₀, m₀), (r, m) => (append r₀ r).bind fun r₁ => (merge e m₀ m).map fun m₁ => (r₁, m₁)
  | _, _, message _ _ sub' es e, (v₀, m₀), (v, m) =>
    (if sub'.isDefault v = true then some v₀ else merge es v₀ v).bind fun v₁ => (merge e m₀ m).map fun m₁ => (v₁, m₁)
  | _, _, newSingular _ _ _ e, m₀, (_, m) => merge e m₀ m
  | _, _, newRepeated _ _ _ _ e, m₀, (_, m) => merge e m₀ m
  | _, _, newMessage _ _ _ e, m₀, (_, m) => merge e m₀ m
  | _, _, oldSingular _ _ _ e, (v₀, m₀), m => (merge e m₀ m).map fun m₁ => (v₀, m₁)
  | _, _, oldRepeated _ _ _ _ e, (r₀, m₀), m => (merge e m₀ m).map fun m₁ => (r₀, m₁)
  | _, _, oldMessage _ _ _ e, (v₀, m₀), m => (merge e m₀ m).map fun m₁ => (v₀, m₁)

end Compat

/-! ## The decoder, seen from the rest of the table -/

section

variable {α : Type} {field : Nat → Nat → α → Istream → Outcome α}

/-- On these tags `field` does what the table `fs` does, in the part of the message that
    `put` puts in. -/
def Agrees (field : Nat → Nat → α → Istream → Outcome α) {fs : Fields} (put : fs.Msg → α) (tags : List Nat) : Prop :=
  ∀ tag, tag ∈ tags → ∀ wireType m s, field tag wireType (put m) s = (decodeField fs tag wireType m s).map put

theorem agrees_self (fs : Fields) (tags : List Nat) : Agrees (decodeField fs) (fun m : fs.Msg => m) tags :=
  fun _ _ _ _ _ => rfl

theorem Agrees.mono {fs : Fields} {put : fs.Msg → α} {tags tags' : List Nat} (h : Agrees field put tags)
    (hsub : ∀ t, t ∈ tags' → t ∈ tags) : Agrees field put tags' := fun t ht => h t (hsub t ht)

/-- Past a field whose tag does not come again. -/
theorem Agrees.singular {tag : Nat} {ty : PbType} {fs : Fields} {put : (singular tag ty fs).Msg → α} {tags : List Nat}
    (h : Agrees field put tags) (ht : tag ∉ tags) (v : ty.Mem) : Agrees field (fun m : fs.Msg => put (v, m)) tags := by
  intro t hmem wireType m s
  have hne : tag ≠ t := fun he => ht (he ▸ hmem)
  rw [h t hmem wireType (v, m) s, decodeField, if_neg hne]
  rfl

theorem Agrees.repeated {tag : Nat} {ty : PbType} {n : Nat} {fs : Fields} {put : (repeated tag ty n fs).Msg → α}
    {tags : List Nat} (h : Agrees field put tags) (ht : tag ∉ tags) (r : Repeated ty.Mem n) :
    Agrees field (fun m : fs.Msg => put (r, m)) tags := by
  intro t hmem wireType m s
  have hne : tag ≠ t := fun he => ht (he ▸ hmem)
  rw [h t hmem wireType (r, m) s, decodeField, if_neg hne]
  rfl

theorem Agrees.message {tag : Nat} {sub fs : Fields} {put : (message tag sub fs).Msg → α} {tags : List Nat}
    (h : Agrees field put tags) (ht : tag ∉ tags) (v : sub.Msg) : Agrees field (fun m : fs.Msg => put (v, m)) tags := by
  intro t hmem wireType m s
  have hne : tag ≠ t := fun he => ht (he ▸ hmem)
  rw [h t hmem wireType (v, m) s, decodeField, if_neg hne]
  rfl

/-! ## Decoding is merging -/

/-- The outcome of decoding an encoded message in front of `s`. -/
def Decodes (field : Nat → Nat → α → Istream → Outcome α) (m : α) (bytes : List UInt8) (r : Option α) : Prop :=
  match r with
  | some m' => ∀ s, decodeNoinit field m (bytes ++ s) = decodeNoinit field m' s
  | none => ∀ s, (decodeNoinit field m (bytes ++ s)).error = some .arrayOverflow

theorem Decodes.nil (m : α) : Decodes field m [] (some m) := fun _ => rfl

/-- A field and then the rest. -/
theorem Decodes.cons {β μ : Type} {put : β × μ → α} {v₀ : β} {m₀ : μ} {head rest : List UInt8} {r : Option β} {q : Option μ}
    (hhead : Decodes field (put (v₀, m₀)) head (r.map fun v₁ => put (v₁, m₀)))
    (hrest : ∀ v₁, Decodes field (put (v₁, m₀)) rest (q.map fun m₁ => put (v₁, m₁))) :
    Decodes field (put (v₀, m₀)) (head ++ rest) ((r.bind fun v₁ => q.map fun m₁ => (v₁, m₁)).map put) := by
  cases r with
  | none =>
    intro s
    rw [List.append_assoc]
    exact hhead (rest ++ s)
  | some v₁ =>
    have hrest := hrest v₁
    cases q with
    | none =>
      intro s
      rw [List.append_assoc, hhead (rest ++ s)]
      exact hrest s
    | some m₁ =>
      intro s
      rw [List.append_assoc, hhead (rest ++ s)]
      exact hrest s

theorem Compat.append_nil {β : Type} {n k : Nat} (r : Repeated β n) {q : Repeated β k} (hq : q.items = []) :
    Compat.append r q = some r := by
  have hle : r.items.length + q.items.length ≤ n := by
    rw [hq]
    exact r.items_le
  rw [Compat.append, dif_pos hle]
  congr 1
  apply Repeated.ext
  rw [Repeated.append]
  simp only [hq, List.append_nil]

variable (hread : ∀ tag wireType m s, (field tag wireType m s).ReadsFrom s)

include hread

theorem decodes_singular {tag : Nat} (h0 : 0 < tag) (ht : tag < 256) {ty : PbType} {fs : Fields}
    {put : (singular tag ty fs).Msg → α} {tags : List Nat} (hag : Agrees field put (tag :: tags)) (v₀ v : ty.Mem) (m₀ : fs.Msg) :
    Decodes field (put (v₀, m₀)) (if v = 0 then [] else tagBytes (wireTypeOf ty) tag ++ scalarBytes ty v)
      (some (put (if v = 0 then v₀ else v, m₀))) := by
  by_cases hv : v = 0
  · rw [if_pos hv, if_pos hv]
    exact Decodes.nil _
  · rw [if_neg hv, if_neg hv]
    intro s
    refine decodeNoinit_record hread (wireTypeOf_lt ty) h0 ht ?_
    rw [hag tag List.mem_cons_self, decodeField, if_pos rfl, decodeScalar_scalarBytes]
    rfl

theorem decodes_repeated {tag : Nat} (h0 : 0 < tag) (ht : tag < 256) {ty : PbType} {n k : Nat} (hk : k < 256) {fs : Fields}
    {put : (repeated tag ty n fs).Msg → α} {tags : List Nat} (hag : Agrees field put (tag :: tags))
    (r₀ : Repeated ty.Mem n) (r : Repeated ty.Mem k) (m₀ : fs.Msg) :
    Decodes field (put (r₀, m₀)) (arrayBytes tag ty r.items) ((Compat.append r₀ r).map fun r₁ => put (r₁, m₀)) := by
  unfold arrayBytes
  by_cases hr : r.items = []
  · rw [if_pos hr, Compat.append_nil r₀ hr]
    exact Decodes.nil _
  · rw [if_neg hr, Compat.append]
    by_cases hroom : r₀.items.length + r.items.length ≤ n
    · rw [dif_pos hroom]
      intro s
      refine decodeNoinit_record hread (by decide) h0 ht ?_
      rw [hag tag List.mem_cons_self, decodeField, if_pos rfl, decodeArray_packed hk ty r₀ r s hroom]
      rfl
    · rw [dif_neg hroom]
      intro s
      refine decodeNoinit_record_error hread (by decide) h0 ht ?_
      rw [hag tag List.mem_cons_self, decodeField, if_pos rfl]
      exact decodeArray_overflow hk ty r₀ r s hroom

theorem decodes_message {tag : Nat} (h0 : 0 < tag) (ht : tag < 256) {sub sub' fs : Fields}
    (hsize : sub'.maxSize (fun _ => 10) < 2 ^ 32) {put : (message tag sub fs).Msg → α} {tags : List Nat}
    (hag : Agrees field put (tag :: tags)) {v₀ : sub.Msg} {v : sub'.Msg} {r : Option sub.Msg} (m₀ : fs.Msg)
    (hsub : Decodes (decodeField sub) v₀ (msgBytes sub' v) r) :
    Decodes field (put (v₀, m₀)) (if sub'.isDefault v = true then [] else tagBytes wtString tag ++ sized (msgBytes sub' v))
      ((if sub'.isDefault v = true then some v₀ else r).map fun v₁ => put (v₁, m₀)) := by
  by_cases hv : sub'.isDefault v = true
  · rw [if_pos hv, if_pos hv]
    exact Decodes.nil _
  · rw [if_neg hv, if_neg hv]
    have hstep : ∀ s, field tag wtString (put (v₀, m₀)) (sized (msgBytes sub' v) ++ s) =
        ⟨put ((decodeNoinit (decodeField sub) v₀ (msgBytes sub' v)).dest, m₀),
          (decodeNoinit (decodeField sub) v₀ (msgBytes sub' v)).error, s⟩ := by
      intro s
      obtain ⟨_, hmake⟩ := makeStringSubstream_sized (length_msgBytes_lt hsize v) s
      rw [hag tag List.mem_cons_self, decodeField, if_pos rfl, decodeSubmessage, hmake]
      rfl
    cases r with
    | none =>
      intro s
      refine decodeNoinit_record_error hread (by decide) h0 ht ?_
      have herror := hsub []
      rw [List.append_nil] at herror
      rw [hstep]
      exact herror
    | some v₁ =>
      intro s
      refine decodeNoinit_record hread (by decide) h0 ht ?_
      have hok := hsub []
      rw [List.append_nil, decodeNoinit_nil] at hok
      rw [hstep, hok]

/-- A record the table does not know, and the rest. -/
theorem decodes_unknown {tag wireType : Nat} (hw : wireType < 8) (h0 : 0 < tag) (ht : tag < 256) {fs : Fields}
    {put : fs.Msg → α} {tags : List Nat} (hag : Agrees field put (tag :: tags)) (hnew : tag ∉ fs.tags) {P : Prop}
    [Decidable P] {value rest : List UInt8} (hskip : ∀ s, skipField wireType (value ++ s) = .ok () s) (m₀ : fs.Msg)
    {r : Option α} (hrest : Decodes field (put m₀) rest r) :
    Decodes field (put m₀) ((if P then [] else tagBytes wireType tag ++ value) ++ rest) r := by
  have hhead : ∀ s, decodeNoinit field (put m₀) ((if P then [] else tagBytes wireType tag ++ value) ++ s) =
      decodeNoinit field (put m₀) s := by
    intro s
    split
    · rfl
    · refine decodeNoinit_record hread hw h0 ht ?_
      rw [hag tag List.mem_cons_self, decodeField_unknown hnew (hskip s)]
      rfl
  cases r with
  | none =>
    intro s
    rw [List.append_assoc, hhead]
    exact hrest s
  | some m₁ =>
    intro s
    rw [List.append_assoc, hhead]
    exact hrest s

end

theorem decode_merge {fs gs : Fields} (e : Compat fs gs) :
    gs.WF → ∀ {α : Type} {field : Nat → Nat → α → Istream → Outcome α},
      (∀ tag wireType m s, (field tag wireType m s).ReadsFrom s) → ∀ {put : fs.Msg → α}, Agrees field put gs.tags →
        ∀ (m₀ : fs.Msg) (m : gs.Msg), Decodes field (put m₀) (msgBytes gs m) ((e.merge m₀ m).map put) := by
  induction e with
  | last => exact fun _ _ _ _ _ _ m₀ _ => Decodes.nil _
  | singular tag ty e ih =>
    rintro ⟨⟨h0, ht, hnot⟩, hwf⟩ α field hread put hag ⟨v₀, m₀⟩ ⟨v, m⟩
    have hrest := hag.mono fun t => List.mem_cons_of_mem tag
    exact @Decodes.cons α field _ _ put v₀ m₀ _ _ (some (if v = 0 then v₀ else v)) (e.merge m₀ m)
      (decodes_singular hread h0 ht hag v₀ v m₀) fun v₁ => ih hwf hread (hrest.singular hnot v₁) m₀ m
  | repeated tag ty n k e ih =>
    rintro ⟨⟨h0, ht, hnot⟩, hk, hwf⟩ α field hread put hag ⟨r₀, m₀⟩ ⟨r, m⟩
    have hrest := hag.mono fun t => List.mem_cons_of_mem tag
    exact @Decodes.cons α field _ _ put r₀ m₀ _ _ (Compat.append r₀ r) (e.merge m₀ m)
      (decodes_repeated hread h0 ht hk hag r₀ r m₀) fun r₁ => ih hwf hread (hrest.repeated hnot r₁) m₀ m
  | message tag sub sub' es e ihs ih =>
    rintro ⟨⟨h0, ht, hnot⟩, ⟨hsize, hsub⟩, hwf⟩ α field hread put hag ⟨v₀, m₀⟩ ⟨v, m⟩
    have hrest := hag.mono fun t => List.mem_cons_of_mem tag
    have hinner := ihs hsub (decodeField_readsFrom sub) (agrees_self sub sub'.tags) v₀ v
    rw [Option.map_id'] at hinner
    exact @Decodes.cons α field _ _ put v₀ m₀ _ _ (if sub'.isDefault v = true then some v₀ else es.merge v₀ v) (e.merge m₀ m)
      (decodes_message hread h0 ht hsize hag m₀ hinner) fun v₁ => ih hwf hread (hrest.message hnot v₁) m₀ m
  | newSingular tag ty hnew e ih =>
    rintro ⟨⟨h0, ht, -⟩, hwf⟩ α field hread put hag m₀ ⟨v, m⟩
    exact decodes_unknown hread (wireTypeOf_lt ty) h0 ht hag hnew (skipField_scalarBytes ty v) m₀
      (ih hwf hread (hag.mono fun t => List.mem_cons_of_mem tag) m₀ m)
  | newRepeated tag ty k hnew e ih =>
    rintro ⟨⟨h0, ht, -⟩, hk, hwf⟩ α field hread put hag m₀ ⟨r, m⟩
    exact decodes_unknown hread (by decide) h0 ht hag hnew (skipField_sized (itemsBytes_lt hk r)) m₀
      (ih hwf hread (hag.mono fun t => List.mem_cons_of_mem tag) m₀ m)
  | newMessage tag sub' hnew e ih =>
    rintro ⟨⟨h0, ht, -⟩, ⟨hsize, -⟩, hwf⟩ α field hread put hag m₀ ⟨v, m⟩
    exact decodes_unknown hread (by decide) h0 ht hag hnew (skipField_sized (length_msgBytes_lt hsize v)) m₀
      (ih hwf hread (hag.mono fun t => List.mem_cons_of_mem tag) m₀ m)
  | oldSingular tag ty hold e ih =>
    intro hwf α field hread put hag m₀ m
    obtain ⟨v₀, m₀⟩ := m₀
    rw [Compat.merge, Option.map_map]
    exact ih hwf hread (hag.singular hold v₀) m₀ m
  | oldRepeated tag ty n hold e ih =>
    intro hwf α field hread put hag m₀ m
    obtain ⟨r₀, m₀⟩ := m₀
    rw [Compat.merge, Option.map_map]
    exact ih hwf hread (hag.repeated hold r₀) m₀ m
  | oldMessage tag sub hold e ih =>
    intro hwf α field hread put hag m₀ m
    obtain ⟨v₀, m₀⟩ := m₀
    rw [Compat.merge, Option.map_map]
    exact ih hwf hread (hag.message hold v₀) m₀ m

/-! ## Any number of messages -/

/-- A message of some other version of the table. -/
structure Version (fs : Fields) where
  table : Fields
  wf : table.WF
  compat : Compat fs table
  msg : table.Msg

def Version.bytes {fs : Fields} (v : Version fs) : List UInt8 := msgBytes v.table v.msg

/-- One after the other into the same struct. -/
def mergeAll {fs : Fields} (m₀ : fs.Msg) (vs : List (Version fs)) : Option fs.Msg :=
  vs.foldlM (fun m v => v.compat.merge m v.msg) m₀

theorem decodes_versions {fs : Fields} (vs : List (Version fs)) (m₀ : fs.Msg) :
    Decodes (decodeField fs) m₀ (vs.flatMap Version.bytes) (mergeAll m₀ vs) := by
  induction vs generalizing m₀ with
  | nil => exact Decodes.nil m₀
  | cons v vs ih =>
    have hone := decode_merge v.compat v.wf (decodeField_readsFrom fs) (agrees_self fs v.table.tags) m₀ v.msg
    rw [Option.map_id'] at hone
    rw [List.flatMap_cons]
    cases hm : v.compat.merge m₀ v.msg with
    | none =>
      rw [hm] at hone
      have hall : mergeAll m₀ (v :: vs) = none := by
        rw [mergeAll, List.foldlM_cons, hm]
        rfl
      rw [hall]
      intro s
      rw [List.append_assoc]
      exact hone _
    | some m₁ =>
      rw [hm] at hone
      have hall : mergeAll m₀ (v :: vs) = mergeAll m₁ vs := by
        rw [mergeAll, List.foldlM_cons, hm]
        rfl
      have hrest := ih m₁
      rw [hall]
      cases hr : mergeAll m₁ vs with
      | none =>
        rw [hr] at hrest
        intro s
        rw [List.append_assoc, Version.bytes, hone]
        exact hrest s
      | some m₂ =>
        rw [hr] at hrest
        intro s
        rw [List.append_assoc, Version.bytes, hone]
        exact hrest s

theorem pbDecode_of_mergeAll {fs : Fields} {vs : List (Version fs)} {m : fs.Msg} (h : mergeAll fs.initZero vs = some m) :
    pbDecode fs (vs.flatMap Version.bytes) = ⟨m, none, []⟩ := by
  have hok := decodes_versions vs fs.initZero
  rw [h] at hok
  have hend := hok []
  rwa [List.append_nil, decodeNoinit_nil] at hend

theorem pbDecode_overflow {fs : Fields} {vs : List (Version fs)} (h : mergeAll fs.initZero vs = none) :
    (pbDecode fs (vs.flatMap Version.bytes)).error = some .arrayOverflow := by
  have herror := decodes_versions vs fs.initZero
  rw [h] at herror
  have hend := herror []
  rwa [List.append_nil] at hend

theorem pbDecode_versions_iff {fs : Fields} (vs : List (Version fs)) :
    (∀ m, pbDecode fs (vs.flatMap Version.bytes) = ⟨m, none, []⟩ ↔ mergeAll fs.initZero vs = some m) ∧
      ((pbDecode fs (vs.flatMap Version.bytes)).error = some .arrayOverflow ↔ mergeAll fs.initZero vs = none) := by
  cases hm : mergeAll fs.initZero vs with
  | none =>
    have herror := pbDecode_overflow hm
    refine ⟨fun m => iff_of_false (fun h => ?_) (fun h => nomatch h), iff_of_true herror rfl⟩
    rw [h] at herror
    cases herror
  | some m₁ =>
    have hone := pbDecode_of_mergeAll hm
    refine ⟨fun m => ?_, iff_of_false (fun h => ?_) (fun h => nomatch h)⟩
    · rw [hone, Outcome.mk.injEq, Option.some.injEq]
      simp
    · rw [hone] at h
      cases h

/-! ## One table -/

namespace Fields

/-- The message as it arrives: a submessage that looks like a default is not sent. -/
def shown : (fs : Fields) → fs.Msg → fs.Msg
  | last, _ => ()
  | singular _ _ rest, (v, m) => (v, rest.shown m)
  | repeated _ _ _ rest, (r, m) => (r, rest.shown m)
  | message _ sub rest, (v, m) => (if sub.isDefault v = true then sub.initZero else sub.shown v, rest.shown m)

/-- No submessage looks like a default without being one. -/
def Sent : (fs : Fields) → fs.Msg → Prop
  | last, _ => True
  | singular _ _ rest, (_, m) => rest.Sent m
  | repeated _ _ _ rest, (_, m) => rest.Sent m
  | message _ sub rest, (v, m) => ((sub.isDefault v = true → v = sub.initZero) ∧ sub.Sent v) ∧ rest.Sent m

theorem sent_initZero (fs : Fields) : fs.Sent fs.initZero := by
  induction fs with
  | last => trivial
  | singular tag ty rest ih => exact ih
  | repeated tag ty n rest ih => exact ih
  | message tag sub rest ihs ih => exact ⟨⟨fun _ => rfl, ihs⟩, ih⟩

theorem shown_eq_iff (fs : Fields) (m : fs.Msg) : fs.shown m = m ↔ fs.Sent m := by
  induction fs with
  | last => exact iff_of_true rfl trivial
  | singular tag ty rest ih =>
    obtain ⟨v, m⟩ := m
    rw [shown, Sent, Prod.mk.injEq, ih]
    exact and_iff_right rfl
  | repeated tag ty n rest ih =>
    obtain ⟨r, m⟩ := m
    rw [shown, Sent, Prod.mk.injEq, ih]
    exact and_iff_right rfl
  | message tag sub rest ihs ih =>
    obtain ⟨v, m⟩ := m
    rw [shown, Sent, Prod.mk.injEq, ih]
    refine and_congr_left fun _ => ?_
    by_cases hv : sub.isDefault v = true
    · rw [if_pos hv]
      constructor
      · intro heq
        subst heq
        exact ⟨fun _ => rfl, sub.sent_initZero⟩
      · rintro ⟨h, -⟩
        exact (h hv).symm
    · rw [if_neg hv, ihs]
      exact (and_iff_right fun h => absurd h hv).symm

/-- Submessages without arrays. -/
def flat : Fields → Bool
  | last => true
  | singular _ _ rest => rest.flat
  | repeated _ _ _ rest => rest.flat
  | message _ sub rest => sub.plain && sub.flat && rest.flat

theorem sent_of_flat {fs : Fields} (h : fs.flat = true) (m : fs.Msg) : fs.Sent m := by
  induction fs with
  | last => trivial
  | singular tag ty rest ih => exact ih h m.2
  | repeated tag ty n rest ih => exact ih h m.2
  | message tag sub rest ihs ih =>
    rw [flat, Bool.and_eq_true, Bool.and_eq_true] at h
    exact ⟨⟨eq_initZero_of_isDefault h.1.1, ihs h.1.2 m.1⟩, ih h.2 m.2⟩

end Fields

/-- Nothing is lost on an empty struct but what is not sent. -/
theorem merge_refl_initZero (fs : Fields) (m : fs.Msg) : (Compat.refl fs).merge fs.initZero m = some (fs.shown m) := by
  induction fs with
  | last => rfl
  | singular tag ty rest ih =>
    obtain ⟨v, m⟩ := m
    have hv : (if v = 0 then 0 else v) = v := by
      split
      case isTrue h => exact h.symm
      case isFalse => rfl
    rw [Compat.refl, initZero, Compat.merge, ih, hv]
    rfl
  | repeated tag ty n rest ih =>
    obtain ⟨r, m⟩ := m
    have hr : Compat.append (Repeated.empty : Repeated ty.Mem n) r = some r := by
      have hle : (Repeated.empty : Repeated ty.Mem n).items.length + r.items.length ≤ n := by
        rw [Repeated.empty, List.length_nil, Nat.zero_add]
        exact r.items_le
      rw [Compat.append, dif_pos hle]
      rfl
    rw [Compat.refl, initZero, Compat.merge, ih, hr]
    rfl
  | message tag sub rest ihs ih =>
    obtain ⟨v, m⟩ := m
    rw [Compat.refl, initZero, Compat.merge, ih, ihs, shown]
    split <;> rfl

theorem pbDecode_msgBytes {fs : Fields} (hfs : fs.WF) (m : fs.Msg) : pbDecode fs (msgBytes fs m) = ⟨fs.shown m, none, []⟩ := by
  have hmerge : mergeAll fs.initZero [⟨fs, hfs, Compat.refl fs, m⟩] = some (fs.shown m) := by
    rw [mergeAll, List.foldlM_cons, merge_refl_initZero]
    rfl
  have hone := pbDecode_of_mergeAll hmerge
  rwa [List.flatMap_singleton, Version.bytes] at hone

theorem round_trip_iff {fs : Fields} (hfs : fs.WF) (m : fs.Msg) {maxSize : Nat} {w : List UInt8}
    (h : pbEncode fs m (.buffer maxSize []) = (none, .buffer maxSize w)) :
    pbDecode fs w = ⟨m, none, []⟩ ↔ fs.Sent m := by
  obtain ⟨rfl, -⟩ := (pbEncode_buffer_iff fs m maxSize w).mp h
  rw [pbDecode_msgBytes hfs, ← shown_eq_iff, Outcome.mk.injEq]
  exact and_iff_left ⟨rfl, rfl⟩

/-- 5 in the first field of a submessage. -/
theorem round_trip_iff_sub :
    pbDecode (message 1 (singular 1 .int32 last) last) [0x0A, 2, 8, 5] = ⟨((5, ()), ()), none, []⟩ ↔
      (message 1 (singular 1 .int32 last) last).Sent ((5, ()), ()) :=
  @round_trip_iff (message 1 (singular 1 .int32 last) last) (by decide) ((5, ()), ()) 8 [0x0A, 2, 8, 5] (by decide)

end SeerDIOBoard.Pb
