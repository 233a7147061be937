/-
  SeerDIOBoard.Pb.Truncated — an encoded message that has lost its end.

  Nothing in the encoding says how many fields there are: a message ends where its bytes
  end, and a stream that ends inside a tag counts as ended in front of it. A stream cut
  inside a length or a value is refused. Cut between two fields, or inside a tag of more
  than one byte, it is accepted, as the message that has only the fields in front.

  `truncated_accepted_iff`: these are the only cases. The board's tables have tags of one
  byte (`inTag_nil`).
-/

import SeerDIOBoard.Pb.Compat

namespace SeerDIOBoard.Pb

open Lib.Bytes Lib.Varint
open Fields

/-! ## Values -/

/-- The front of a closed word is none. -/
theorem decodeVarint_cut {w p t : List UInt8} (hw : Closed w) (h : w = p ++ t) (ht : t ≠ []) :
    ∃ e rest, decodeVarint p = .error e rest := by
  have hopen := hw.open_of_prefix h ht
  obtain ⟨e, he⟩ := @decodeVarint_open p fun b hb => hopen b (List.mem_of_mem_take hb)
  exact ⟨e, _, he⟩

theorem decodeVarint32_cut {w p t : List UInt8} (hw : Closed w) (h : w = p ++ t) (ht : t ≠ []) :
    ∃ e rest, decodeVarint32 p = .error e rest := by
  have hopen := hw.open_of_prefix h ht
  obtain ⟨e, he⟩ := @decodeVarint32_open p fun b hb => hopen b (List.mem_of_mem_take hb)
  exact ⟨e, _, he⟩

theorem read_cut {n : Nat} {w p t : List UInt8} (hw : w.length = n) (h : w = p ++ t) (ht : t ≠ []) :
    read n p = .error .endOfStream p := by
  have hpos := List.length_pos_of_ne_nil ht
  rw [h, List.length_append] at hw
  rw [read, if_pos (by omega)]

theorem decodeScalar_cut {ty : PbType} {v : ty.Mem} {p t : List UInt8} (h : scalarBytes ty v = p ++ t) (ht : t ≠ [])
    (dest : ty.Mem) : (decodeScalar ty p dest).error ≠ none := by
  have hv := v.isLt
  have hsize : ty.dataSize ≤ 8 := by cases ty <;> decide
  have h64 : v.toNat < 2 ^ 64 := Nat.lt_of_lt_of_le hv (Nat.pow_le_pow_right (by decide) (by omega))
  unfold scalarBytes at h
  unfold decodeScalar
  cases hl : ty.ltype with
  | varint =>
    rw [hl] at h
    obtain ⟨e, rest, he⟩ := decodeVarint_cut (closed_varintBytes (unsigned_lt _)) h ht
    simp [he, Read.elim]
  | uvarint =>
    rw [hl] at h
    obtain ⟨e, rest, he⟩ := decodeVarint_cut (closed_varintBytes h64) h ht
    simp [he, Read.elim]
  | svarint =>
    rw [hl] at h
    obtain ⟨e, rest, he⟩ := decodeVarint_cut (closed_varintBytes (zigzag_lt _)) h ht
    simp [he, Read.elim]
  | fixed32 =>
    rw [hl] at h
    simp [read_cut (leBytes_length 4 _) h ht, Read.elim]
  | fixed64 =>
    rw [hl] at h
    simp [read_cut (leBytes_length 8 _) h ht, Read.elim]

theorem makeStringSubstream_cut {bs p t : List UInt8} (hbs : bs.length < 2 ^ 32) (h : sized bs = p ++ t) (ht : t ≠ []) :
    ∃ e rest, makeStringSubstream p = .error e rest := by
  have h64 : bs.length < 2 ^ 64 := by omega
  have hpos := List.length_pos_of_ne_nil ht
  rw [sized] at h
  unfold makeStringSubstream
  rcases List.append_eq_append_iff.mp h with ⟨q, hp, hq⟩ | ⟨q, hw, hq⟩
  · -- cut in the content: there is less than the length says
    have hlen : q.length < bs.length := by
      rw [hq, List.length_append]
      omega
    rw [hp, decodeVarint32_varintBytes hbs]
    dsimp only
    rw [if_pos hlen]
    exact ⟨_, _, rfl⟩
  · by_cases hnil : q = []
    · -- cut behind the length
      rw [hnil, List.append_nil] at hw
      rw [hnil, List.nil_append] at hq
      have hlen : ([] : List UInt8).length < bs.length := by
        rw [← hq]
        exact hpos
      rw [← hw, show varintBytes bs.length = varintBytes bs.length ++ [] from (List.append_nil _).symm,
        decodeVarint32_varintBytes hbs]
      dsimp only
      rw [if_pos hlen]
      exact ⟨_, _, rfl⟩
    · obtain ⟨e, rest, he⟩ := decodeVarint32_cut (closed_varintBytes h64) hw hnil
      rw [he]
      exact ⟨_, _, rfl⟩

theorem decodeArray_cut {n : Nat} {ty : PbType} {bs p t : List UInt8} (hbs : bs.length < 2 ^ 32) (h : sized bs = p ++ t)
    (ht : t ≠ []) (r : Repeated ty.Mem n) : (decodeArray ty wtString p r).error ≠ none := by
  obtain ⟨e, rest, he⟩ := makeStringSubstream_cut hbs h ht
  rw [decodeArray, if_pos rfl, he]
  exact Option.some_ne_none e

theorem decodeSubmessage_cut {α : Type} {bs p t : List UInt8} (hbs : bs.length < 2 ^ 32) (h : sized bs = p ++ t)
    (ht : t ≠ []) (decode : α → Istream → Outcome α) (v : α) : (decodeSubmessage decode p v).error ≠ none := by
  obtain ⟨e, rest, he⟩ := makeStringSubstream_cut hbs h ht
  rw [decodeSubmessage, he]
  exact Option.some_ne_none e

/-! ## Messages -/

namespace Fields

/-- The first `n` fields; the others are zero. -/
def upTo : (fs : Fields) → Nat → fs.Msg → fs.Msg
  | fs, 0, _ => fs.initZero
  | last, _ + 1, _ => ()
  | singular _ _ rest, n + 1, (v, m) => (v, rest.upTo n m)
  | repeated _ _ _ rest, n + 1, (r, m) => (r, rest.upTo n m)
  | message _ _ rest, n + 1, (v, m) => (v, rest.upTo n m)

end Fields

theorem msgBytes_initZero (fs : Fields) : msgBytes fs fs.initZero = [] := by
  induction fs with
  | last => rfl
  | singular tag ty rest ih => rw [initZero, msgBytes, if_pos rfl, ih]; rfl
  | repeated tag ty n rest ih => rw [initZero, msgBytes, ih, Repeated.empty, arrayBytes, if_pos rfl]; rfl
  | message tag sub rest _ ih => rw [initZero, msgBytes, if_pos (isDefault_initZero sub), ih]; rfl

theorem length_tagBytes_le {wireType tag n : Nat} (hw : wireType < 8) (hn : n ≤ 10) (hpos : 0 < n) (ht : 8 * tag + 8 ≤ 128 ^ n) :
    (tagBytes wireType tag).length ≤ n := by
  have hval := tagWord hw tag
  exact length_varintBytes hn hpos (by omega)

/-- What a stream may end with: nothing, or the front of a tag of the table. -/
def InTag (tags : List Nat) (q : List UInt8) : Prop :=
  q = [] ∨ ∃ wireType tag t, wireType < 8 ∧ tag ∈ tags ∧ t ≠ [] ∧ tagBytes wireType tag = q ++ t

theorem InTag.mono {tags tags' : List Nat} {q : List UInt8} (h : InTag tags q) (hsub : ∀ t, t ∈ tags → t ∈ tags') :
    InTag tags' q := by
  rcases h with h | ⟨wireType, tag, t, hw, hmem, ht, heq⟩
  · exact Or.inl h
  · exact Or.inr ⟨wireType, tag, t, hw, hsub tag hmem, ht, heq⟩

/-- A tag of one byte has no inside. -/
theorem inTag_nil {tags : List Nat} {q : List UInt8} (htags : ∀ t, t ∈ tags → t < 16) (h : InTag tags q) : q = [] := by
  rcases h with h | ⟨wireType, tag, t, hw, hmem, ht, heq⟩
  · exact h
  · have hlen := length_tagBytes_le hw (by decide) Nat.one_pos (show 8 * tag + 8 ≤ 128 ^ 1 by have := htags tag hmem; omega)
    have hpos := List.length_pos_of_ne_nil ht
    rw [heq, List.length_append] at hlen
    exact List.eq_nil_of_length_eq_zero (by omega)

section

variable {α : Type} {field : Nat → Nat → α → Istream → Outcome α}

variable (hread : ∀ tag wireType m s, (field tag wireType m s).ReadsFrom s)

include hread

/-- A record without its end: cut in its tag, or refused. -/
theorem record_cut {wireType tag : Nat} (hw : wireType < 8) (h0 : 0 < tag) (ht : tag < 256) {m : α} {value : List UInt8}
    (hcut : ∀ p t, value = p ++ t → t ≠ [] → (field tag wireType m p).error ≠ none) {P : Prop} [Decidable P]
    {p t : List UInt8} (h : (if P then [] else tagBytes wireType tag ++ value) = p ++ t) (ht' : t ≠ []) :
    InTag [tag] p ∨ (decodeNoinit field m p).error ≠ none := by
  split at h
  case isTrue => exact absurd (List.append_eq_nil_iff.mp h.symm).2 ht'
  rcases List.append_eq_append_iff.mp h with ⟨q, rfl, hq⟩ | ⟨q, htag, hq⟩
  · obtain ⟨e, he⟩ := Option.ne_none_iff_exists'.mp (hcut q t hq ht')
    have herror := @decodeNoinit_record_error α field hread wireType tag hw h0 ht m q [] e (by rwa [List.append_nil])
    rw [List.append_nil] at herror
    refine Or.inr ?_
    rw [herror]
    exact Option.some_ne_none e
  · by_cases hnil : q = []
    · -- cut behind the tag
      subst hnil
      rw [List.append_nil] at htag
      rw [List.nil_append] at hq
      obtain ⟨e, he⟩ := Option.ne_none_iff_exists'.mp (hcut [] t (by rw [← hq]; rfl) ht')
      have herror := @decodeNoinit_record_error α field hread wireType tag hw h0 ht m [] [] e he
      rw [List.append_nil, List.append_nil, htag] at herror
      refine Or.inr ?_
      rw [herror]
      exact Option.some_ne_none e
    · exact Or.inl (Or.inr ⟨wireType, tag, q, hw, List.mem_singleton_self tag, hnil, htag⟩)

omit hread in
/-- The stream ends in front of the field or in its tag, further inside it, or behind it. -/
theorem cut_cases {m₀ : α} {tag : Nat} {head rest p : List UInt8} {r : Option α} (hhead : Decodes field m₀ head r)
    (hcut : ∀ p t, head = p ++ t → t ≠ [] → InTag [tag] p ∨ (decodeNoinit field m₀ p).error ≠ none)
    (hp : p <+: head ++ rest) :
    InTag [tag] p ∨ (decodeNoinit field m₀ p).error ≠ none ∨
      ∃ q m₁, r = some m₁ ∧ p = head ++ q ∧ q <+: rest ∧ decodeNoinit field m₀ p = decodeNoinit field m₁ q := by
  have hbehind : ∀ q, p = head ++ q → q <+: rest → (decodeNoinit field m₀ p).error ≠ none ∨
      ∃ q m₁, r = some m₁ ∧ p = head ++ q ∧ q <+: rest ∧ decodeNoinit field m₀ p = decodeNoinit field m₁ q := by
    intro q hpq hq
    cases r with
    | none => exact Or.inl (by rw [hpq, hhead q]; exact Option.some_ne_none _)
    | some m₁ => exact Or.inr ⟨q, m₁, rfl, hpq, hq, by rw [hpq, hhead q]⟩
  rcases List.prefix_or_prefix_of_prefix hp (List.prefix_append head rest) with ⟨t, ht⟩ | ⟨q, rfl⟩
  · by_cases htnil : t = []
    · rw [htnil, List.append_nil] at ht
      exact Or.inr (hbehind [] (by rw [ht, List.append_nil]) List.nil_prefix)
    · rcases hcut p t ht.symm htnil with hin | herror
      · exact Or.inl hin
      · exact Or.inr (Or.inl herror)
  · exact Or.inr (hbehind q rfl ((List.prefix_append_right_inj head).mp hp))

end

theorem truncated {fs : Fields} :
    fs.WF → ∀ {α : Type} {field : Nat → Nat → α → Istream → Outcome α},
      (∀ tag wireType m s, (field tag wireType m s).ReadsFrom s) → ∀ {put : fs.Msg → α}, Agrees field put fs.tags →
        ∀ (m₀ m : fs.Msg) {p : List UInt8}, p <+: msgBytes fs m →
          (∃ n q, p = msgBytes fs (fs.upTo n m) ++ q ∧ InTag fs.tags q) ∨ (decodeNoinit field (put m₀) p).error ≠ none := by
  induction fs with
  | last =>
    intro _ α field _ put _ m₀ m p hp
    exact Or.inl ⟨0, [], List.prefix_nil.mp hp, Or.inl rfl⟩
  | singular tag ty rest ih =>
    rintro ⟨⟨h0, ht, hnot⟩, hwf⟩ α field hread put hag ⟨v₀, m₀⟩ ⟨v, m⟩ p hp
    rcases cut_cases (decodes_singular hread h0 ht hag v₀ v m₀) (fun p t h hte => record_cut hread (wireTypeOf_lt ty) h0 ht
        (fun q u hq hu => by rw [hag tag List.mem_cons_self, decodeField, if_pos rfl]; exact decodeScalar_cut hq hu v₀)
        h hte) hp with hin | herror | ⟨q, m₁, hm, rfl, hq, heq⟩
    · exact Or.inl ⟨0, p, by rw [upTo, msgBytes_initZero]; rfl, hin.mono fun t h => List.mem_singleton.mp h ▸ List.mem_cons_self⟩
    · exact Or.inr herror
    · cases hm
      rw [heq]
      have hrest := (hag.mono fun t => List.mem_cons_of_mem tag).singular hnot (if v = 0 then v₀ else v)
      rcases ih hwf hread hrest m₀ m hq with ⟨n, u, rfl, hu⟩ | herror
      · exact Or.inl ⟨n + 1, u, (List.append_assoc _ _ _).symm, hu.mono fun t => List.mem_cons_of_mem tag⟩
      · exact Or.inr herror
  | repeated tag ty k rest ih =>
    rintro ⟨⟨h0, ht, hnot⟩, hk, hwf⟩ α field hread put hag ⟨r₀, m₀⟩ ⟨r, m⟩ p hp
    rcases cut_cases (decodes_repeated hread h0 ht hk hag r₀ r m₀) (fun p t h hte => record_cut hread (by decide) h0 ht
        (fun q u hq hu => by
          rw [hag tag List.mem_cons_self, decodeField, if_pos rfl]
          exact decodeArray_cut (itemsBytes_lt hk r) hq hu r₀)
        h hte) hp with hin | herror | ⟨q, m₁, hm, rfl, hq, heq⟩
    · exact Or.inl ⟨0, p, by rw [upTo, msgBytes_initZero]; rfl, hin.mono fun t h => List.mem_singleton.mp h ▸ List.mem_cons_self⟩
    · exact Or.inr herror
    · obtain ⟨r₁, -, rfl⟩ := Option.map_eq_some_iff.mp hm
      rw [heq]
      have hrest := (hag.mono fun t => List.mem_cons_of_mem tag).repeated hnot r₁
      rcases ih hwf hread hrest m₀ m hq with ⟨n, u, rfl, hu⟩ | herror
      · exact Or.inl ⟨n + 1, u, (List.append_assoc _ _ _).symm, hu.mono fun t => List.mem_cons_of_mem tag⟩
      · exact Or.inr herror
  | message tag sub rest _ ih =>
    rintro ⟨⟨h0, ht, hnot⟩, ⟨hsize, hsub⟩, hwf⟩ α field hread put hag ⟨v₀, m₀⟩ ⟨v, m⟩ p hp
    have hinner := decode_merge (Compat.refl sub) hsub (decodeField_readsFrom sub) (agrees_self sub sub.tags) v₀ v
    rcases cut_cases (decodes_message hread h0 ht hsize hag m₀ hinner) (fun p t h hte => record_cut hread (by decide) h0 ht
        (fun q u hq hu => by
          rw [hag tag List.mem_cons_self, decodeField, if_pos rfl]
          exact decodeSubmessage_cut (length_msgBytes_lt hsize v) hq hu _ v₀)
        h hte) hp with hin | herror | ⟨q, m₁, hm, rfl, hq, heq⟩
    · exact Or.inl ⟨0, p, by rw [upTo, msgBytes_initZero]; rfl, hin.mono fun t h => List.mem_singleton.mp h ▸ List.mem_cons_self⟩
    · exact Or.inr herror
    · obtain ⟨v₁, -, rfl⟩ := Option.map_eq_some_iff.mp hm
      rw [heq]
      have hrest := (hag.mono fun t => List.mem_cons_of_mem tag).message hnot v₁
      rcases ih hwf hread hrest m₀ m hq with ⟨n, u, rfl, hu⟩ | herror
      · exact Or.inl ⟨n + 1, u, (List.append_assoc _ _ _).symm, hu.mono fun t => List.mem_cons_of_mem tag⟩
      · exact Or.inr herror

end SeerDIOBoard.Pb
