import GoIpsec.Ikemsg.RoundTrip
import Mathlib.Data.Nat.Bitwise

/-!
# Extensions

A decoder meets payloads and transform attributes it has no model of.  This module
gives both decoders a grammar: a chain is a list of payloads on the wire whose Next
Payload fields are threaded through it, a transform carries a list of attributes.
What is accepted is exactly what the grammar produces, so that a splice into an
accepted chain, or into the attributes of an accepted transform, can be said and
followed through the decoder.
-/

namespace GoIpsec.Ikemsg

open Golang

/-! ## Chains on the wire -/

/-- A payload on the wire, its Next Payload field apart.  `flags` is the octet of the
Critical bit. -/
structure RawPayload where
  type : PayloadType
  flags : UInt8
  body : Bytes
  fits : body.length ≤ 65531

namespace RawPayload

/-- The Critical bit is set. -/
def Critical (r : RawPayload) : Prop := r.flags &&& criticalBit ≠ 0

/-- The codec has no model of the type. -/
def Unmodelled (r : RawPayload) : Prop := ∀ following, newPayload r.type following = none

def bytes (r : RawPayload) (following : PayloadType) : Bytes :=
  [following, r.flags] ++ (putUint16 (UInt16.ofNat (genericHeaderLen + r.body.length)) ++ r.body)

/-- What the payload adds to the decoded chain. -/
def decode (r : RawPayload) (following : PayloadType) : Go Payloads :=
  match newPayload r.type following with
  | none =>
      if r.flags &&& criticalBit ≠ 0 then fail s!"ikemsg: unknown critical payload type {r.type}"
      else .ok []
  | some unmarshalBody => do
      let p ← wrapErr s!"ikemsg: payload type {r.type}: " (unmarshalBody r.body)
      return [p]

end RawPayload

/-- The type a chain is announced with: that of its first payload, and `last` where
there is none. -/
def headType (last : PayloadType) : List RawPayload → PayloadType
  | [] => last
  | r :: _ => r.type

/-- The octets of a chain.  Each Next Payload field names the payload behind it, the
final one `last`. -/
def threaded (last : PayloadType) : List RawPayload → Bytes
  | [] => []
  | r :: rs => r.bytes (headType last rs) ++ threaded last rs

def decodeChain (last : PayloadType) : List RawPayload → Go Payloads
  | [] => .ok []
  | r :: rs => do
      let ps ← r.decode (headType last rs)
      let more ← decodeChain last rs
      return ps ++ more

/-! ## The decoder on a chain -/

theorem exists_two {b : Bytes} (h : 2 ≤ b.length) : ∃ x y b', b = [x, y] ++ b' := by
  match b with
  | x :: y :: b' => exact ⟨x, y, b', rfl⟩
  | [] | [_] => simp at h

theorem exists_number {b : Bytes} (h : 2 ≤ b.length) : ∃ v b', b = putUint16 v ++ b' := by
  obtain ⟨x, y, b', rfl⟩ := exists_two h
  obtain ⟨v, hv⟩ := exists_putUint16 x y
  exact ⟨v, b', by rw [hv]⟩

theorem parsePayload_bytes (r : RawPayload) (following : PayloadType) (rest : Bytes) :
    parsePayload r.type (r.bytes following ++ rest) =
      r.decode following >>= fun ps => .ok (ps, following, rest) := by
  rw [RawPayload.bytes]
  simp only [List.append_assoc]
  rw [parsePayload_front r.type following r.flags rest r.fits, RawPayload.decode]
  cases newPayload r.type following with
  | none =>
      dsimp only
      split <;> rfl
  | some unmarshalBody => simp only [ok_bind, pure_eq_ok, bind_assoc]

/-- What is accepted at the front of a chain is a payload on the wire. -/
theorem parsePayload_eq_ok {t following : PayloadType} {b rest : Bytes} {ps : Payloads}
    (h : parsePayload t b = .ok (ps, following, rest)) :
    ∃ r : RawPayload, r.type = t ∧ b = r.bytes following ++ rest := by
  unfold parsePayload at h
  split at h
  · cases h
  rename_i hlen
  rw [genericHeaderLen] at hlen
  obtain ⟨x, y, b, rfl⟩ := exists_two (b := b) (by omega)
  obtain ⟨v, tail, rfl⟩ := exists_number (b := b) (by simp at hlen; omega)
  have hnext : index ([x, y] ++ (putUint16 v ++ tail)) 0 = .ok x := rfl
  have hflags : index ([x, y] ++ (putUint16 v ++ tail)) 1 = .ok y := rfl
  rw [hnext, ok_bind, hflags, ok_bind, slice_mid (by simp) (by simp), ok_bind, uint16_putUint16,
    ok_bind] at h
  dsimp only at h
  split at h
  · cases h
  split at h
  · cases h
  rename_i hmin hmax
  rw [genericHeaderLen] at hmin
  simp only [List.length_append, List.length_cons, List.length_nil, length_putUint16] at hmax
  have hvlt := UInt16.toNat_lt v
  have htake : (tail.take (v.toNat - 4)).length = v.toNat - 4 := by
    rw [List.length_take]
    omega
  have hrest : sliceFrom ([x, y] ++ (putUint16 v ++ tail)) v.toNat = .ok (tail.drop (v.toNat - 4)) := by
    rw [sliceFrom_append_of_ge (by simp; omega), sliceFrom_append_of_ge (by simp; omega),
      sliceFrom_ok (by simp; omega), List.length_cons, List.length_singleton, length_putUint16, Nat.sub_sub]
  rw [hrest] at h
  have hend : x = following ∧ tail.drop (v.toNat - 4) = rest := by
    split at h
    · split at h
      · cases h
      · cases h
        exact ⟨rfl, rfl⟩
    · simp only [bind_eq_ok, pure_eq_ok, Except.ok.injEq, Prod.mk.injEq] at h
      obtain ⟨_, _, _, _, _, hr, -, rfl, rfl⟩ := h
      exact ⟨rfl, hr⟩
  obtain ⟨rfl, rfl⟩ := hend
  refine ⟨⟨t, y, tail.take (v.toNat - 4), by omega⟩, rfl, ?_⟩
  have hself : UInt16.ofNat (genericHeaderLen + (tail.take (v.toNat - 4)).length) = v := by
    apply UInt16.toNat_inj.mp
    rw [UInt16.toNat_ofNat', genericHeaderLen, htake]
    omega
  rw [RawPayload.bytes, hself]
  simp only [List.append_assoc, List.take_append_drop]

theorem parseChain_threaded (last : PayloadType) (rs : List RawPayload) :
    parseChain (headType last rs) (threaded last rs) = decodeChain last rs := by
  induction rs with
  | nil => exact many_nil _
  | cons r rs ih =>
      have hne : r.bytes (headType last rs) ++ threaded last rs ≠ [] := by simp [RawPayload.bytes]
      rw [threaded, headType, parseChain, many_step consumes_parsePayload hne, parsePayload_bytes,
        decodeChain, ← ih, parseChain, bind_assoc]
      rfl

/-- Every accepted chain is threaded. -/
theorem exists_threaded {first : PayloadType} {body : Bytes} {ps : Payloads}
    (h : parseChain first body = .ok ps) :
    ∃ last rs, first = headType last rs ∧ body = threaded last rs := by
  induction hn : body.length using Nat.strong_induction_on generalizing first body ps with
  | _ n ih =>
      by_cases hnil : body = []
      · exact ⟨first, [], rfl, hnil⟩
      rw [parseChain, many_step consumes_parsePayload hnil] at h
      simp only [bind_eq_ok, Except.ok.injEq] at h
      obtain ⟨⟨as, following, rest⟩, hitem, more, hmore, -⟩ := h
      have hlt := consumes_parsePayload _ _ _ _ _ hitem
      obtain ⟨r, rfl, rfl⟩ := parsePayload_eq_ok hitem
      obtain ⟨last, rs, rfl, rfl⟩ := ih _ (hn ▸ hlt) hmore rfl
      exact ⟨last, r :: rs, rfl, rfl⟩

/-! ## Splicing a payload in -/

/-- Only the encrypted payload reads its Next Payload field. -/
theorem newPayload_following {t : PayloadType} (h : t ≠ payloadSK) (following following' : PayloadType) :
    newPayload t following = newPayload t following' := by
  simp only [newPayload, if_neg h]

theorem headType_append (last : PayloadType) (before after : List RawPayload) :
    headType last (before ++ after) = headType (headType last after) before := by
  cases before <;> rfl

theorem decodeChain_append (last : PayloadType) (before after : List RawPayload) :
    decodeChain last (before ++ after) = decodeChain (headType last after) before >>= fun ps =>
      decodeChain last after >>= fun more => .ok (ps ++ more) := by
  induction before with
  | nil =>
      rw [List.nil_append, decodeChain, ok_bind]
      cases decodeChain last after <;> rfl
  | cons r rs ih =>
      rw [List.cons_append, decodeChain, decodeChain, headType_append, ih]
      simp only [bind_assoc, ok_bind, pure_eq_ok, List.append_assoc]

/-- The final Next Payload field is not looked at, unless it is an encrypted payload's. -/
theorem decodeChain_last {rs : List RawPayload} (h : ∀ r ∈ rs.getLast?, r.type ≠ payloadSK)
    (last last' : PayloadType) : decodeChain last rs = decodeChain last' rs := by
  induction rs with
  | nil => rfl
  | cons r rs ih =>
      cases rs with
      | nil =>
          have hnew := newPayload_following (h r rfl) last last'
          simp only [decodeChain, headType, RawPayload.decode, hnew]
      | cons q qs =>
          rw [decodeChain, ih (by rwa [List.getLast?_cons_cons] at h), decodeChain]
          rfl

theorem decodeChain_splice {before after : List RawPayload} {x : RawPayload} {last : PayloadType}
    {ps : Payloads} (hsk : ∀ r ∈ before.getLast?, r.type ≠ payloadSK) (hx : x.Unmodelled)
    (h : decodeChain last (before ++ after) = .ok ps) :
    decodeChain last (before ++ x :: after) =
      if x.flags &&& criticalBit ≠ 0 then fail s!"ikemsg: unknown critical payload type {x.type}"
      else .ok ps := by
  rw [decodeChain_append] at h ⊢
  simp only [bind_eq_ok, Except.ok.injEq] at h
  obtain ⟨ps₁, hbefore, ps₂, hafter, rfl⟩ := h
  have hx' : x.decode (headType last after) =
      if x.flags &&& criticalBit ≠ 0 then fail s!"ikemsg: unknown critical payload type {x.type}"
      else .ok [] := by
    rw [RawPayload.decode, hx]
  rw [decodeChain_last hsk _ (headType last after), hbefore, ok_bind, decodeChain, hx', hafter]
  split <;> rfl

/-! ## Attributes on the wire -/

/-- A transform attribute on the wire: a type of fifteen bits with a value of two octets
(TV), or with a value behind its length (TLV). -/
inductive RawAttr where
  | tv (type value : UInt16) (htype : type < 0x8000)
  | tlv (type : UInt16) (value : Bytes) (htype : type < 0x8000) (fits : value.length ≤ 65535)

namespace RawAttr

def bytes : RawAttr → Bytes
  | tv type value _ => putUint16 (0x8000 ||| type) ++ putUint16 value
  | tlv type value _ _ => putUint16 type ++ (putUint16 (UInt16.ofNat value.length) ++ value)

/-- The value of a TV Key Length. -/
def keyLength : RawAttr → Option UInt16
  | tv type value _ => if type = attrKeyLength then some value else none
  | tlv .. => none

end RawAttr

/-- A transform on the wire.  Its first octet says whether more of them follow, two others
are reserved. -/
structure RawTransform where
  more : UInt8
  reserved₁ : UInt8
  type : TransformType
  reserved₂ : UInt8
  id : UInt16
  attrs : List RawAttr
  fits : 8 + (attrs.map RawAttr.bytes).flatten.length ≤ 65535

namespace RawTransform

def attr (t : RawTransform) : Bytes := (t.attrs.map RawAttr.bytes).flatten

def bytes (t : RawTransform) : Bytes :=
  [t.more, t.reserved₁] ++ (putUint16 (UInt16.ofNat (8 + t.attr.length)) ++
    ([t.type, t.reserved₂] ++ (putUint16 t.id ++ t.attr)))

def decoded (t : RawTransform) : Transform :=
  transformOf t.type t.id (lastKeyLength (t.attrs.map RawAttr.keyLength))

end RawTransform

/-! ## The decoder on a transform -/

section Bits

variable {x : UInt16}

theorem and_high (x : UInt16) : x &&& 0x8000 = 0 ↔ x < 0x8000 := by
  have hx := UInt16.toNat_lt x
  rw [← UInt16.toNat_inj, UInt16.toNat_and, UInt16.lt_iff_toNat_lt]
  change x.toNat &&& 2 ^ 15 = 0 ↔ x.toNat < 2 ^ 15
  rw [Nat.and_two_pow, Nat.testBit_eq_decide_div_mod_eq]
  by_cases h : x.toNat < 2 ^ 15
  · have hbit : x.toNat / 2 ^ 15 % 2 = 0 := by omega
    rw [hbit]
    exact iff_of_true rfl h
  · have hbit : x.toNat / 2 ^ 15 % 2 = 1 := by omega
    rw [hbit]
    exact iff_of_false (by decide) h

theorem toNat_high_or (h : x < 0x8000) : (0x8000 ||| x).toNat = 0x8000 + x.toNat := by
  have hx : x.toNat < 2 ^ 15 := UInt16.lt_iff_toNat_lt.mp h
  rw [UInt16.toNat_or]
  exact (Nat.two_pow_add_eq_or_of_lt hx 1).symm

theorem toNat_and_low (x : UInt16) : (x &&& 0x7fff).toNat = x.toNat % 2 ^ 15 := by
  rw [UInt16.toNat_and]
  exact Nat.and_two_pow_sub_one_eq_mod x.toNat 15

theorem high_or_and_low (h : x < 0x8000) : (0x8000 ||| x) &&& 0x7fff = x := by
  have hx : x.toNat < 2 ^ 15 := UInt16.lt_iff_toNat_lt.mp h
  apply UInt16.toNat_inj.mp
  rw [toNat_and_low, toNat_high_or h]
  omega

theorem high_or_low (h : x &&& 0x8000 ≠ 0) :
    (x &&& 0x7fff) < 0x8000 ∧ 0x8000 ||| (x &&& 0x7fff) = x := by
  have hx := UInt16.toNat_lt x
  have hge : ¬ x.toNat < 0x8000 := fun hlt => h ((and_high x).mpr (UInt16.lt_iff_toNat_lt.mpr hlt))
  have hlow : (x &&& 0x7fff) < 0x8000 := by
    rw [UInt16.lt_iff_toNat_lt, toNat_and_low]
    exact Nat.mod_lt _ (by decide)
  refine ⟨hlow, UInt16.toNat_inj.mp ?_⟩
  rw [toNat_high_or hlow, toNat_and_low]
  omega

end Bits

theorem parseAttr_bytes (tlen : Nat) (a : RawAttr) (rest : Bytes) :
    parseAttr tlen (a.bytes ++ rest) = .ok (a.keyLength, rest) := by
  cases a with
  | tv type value htype =>
      have hne : (0x8000 ||| type) &&& 0x8000 ≠ 0 := by
        rw [Ne, and_high, UInt16.lt_iff_toNat_lt, toNat_high_or htype]
        exact Nat.not_lt.mpr (Nat.le_add_right _ _)
      rw [RawAttr.bytes, List.append_assoc]
      generalize hb : putUint16 (0x8000 ||| type) ++ (putUint16 value ++ rest) = b
      have hblen : ¬ b.length < 4 := by rw [← hb]; simp; omega
      have haf : slice b 0 2 = .ok (putUint16 (0x8000 ||| type)) := by
        rw [← hb, slice_append_of_le (by simp), slice_all (by simp)]
      have hvalue : slice b 2 4 = .ok (putUint16 value) := by
        rw [← hb, slice_mid (by simp) (by simp)]
      have hrest : sliceFrom b 4 = .ok rest := by
        rw [← hb, ← List.append_assoc, sliceFrom_append (by simp)]
      rw [parseAttr, if_neg hblen, haf, ok_bind, uint16_putUint16, ok_bind, if_pos hne, hvalue, ok_bind,
        uint16_putUint16, ok_bind, hrest, ok_bind, high_or_and_low htype]
      rfl
  | tlv type value htype fits =>
      have halen : (UInt16.ofNat value.length).toNat = value.length := by
        rw [UInt16.toNat_ofNat']
        omega
      rw [RawAttr.bytes]
      simp only [List.append_assoc]
      generalize hb : putUint16 type ++ (putUint16 (UInt16.ofNat value.length) ++ (value ++ rest)) = b
      have hblen : b.length = 4 + value.length + rest.length := by rw [← hb]; simp; omega
      have haf : slice b 0 2 = .ok (putUint16 type) := by
        rw [← hb, slice_append_of_le (by simp), slice_all (by simp)]
      have hlength : slice b 2 4 = .ok (putUint16 (UInt16.ofNat value.length)) := by
        rw [← hb, slice_mid (by simp) (by simp)]
      have hrest : sliceFrom b (4 + value.length) = .ok rest := by
        rw [← hb, ← List.append_assoc, ← List.append_assoc, sliceFrom_append (by simp; omega)]
      rw [parseAttr, if_neg (by omega), haf, ok_bind, uint16_putUint16, ok_bind,
        if_neg (not_not_intro ((and_high type).mpr htype)), hlength, ok_bind, uint16_putUint16, ok_bind]
      simp only [halen]
      rw [if_neg (by omega), hrest]
      rfl

theorem accepts_parseAttr (tlen : Nat) :
    Accepts (parseAttr tlen) RawAttr.bytes RawAttr.keyLength := by
  intro b a rest
  constructor
  · intro h
    -- an accepted attribute is first written as one of the grammar, and then read
    suffices hshape : ∃ (r : RawAttr) (rest' : Bytes), b = r.bytes ++ rest' by
      obtain ⟨r, rest', rfl⟩ := hshape
      rw [parseAttr_bytes] at h
      cases h
      exact ⟨r, rfl, rfl⟩
    unfold parseAttr at h
    split at h
    · cases h
    rename_i hlen
    obtain ⟨af, b, rfl⟩ := exists_number (b := b) (by omega)
    obtain ⟨v, tail, rfl⟩ := exists_number (b := b) (by simp at hlen; omega)
    rw [slice_append_of_le (by simp), slice_all (by simp), ok_bind, uint16_putUint16, ok_bind] at h
    split at h
    · rename_i htv
      obtain ⟨hlow, heq⟩ := high_or_low htv
      exact ⟨.tv (af &&& 0x7fff) v hlow, tail, by rw [RawAttr.bytes, heq, List.append_assoc]⟩
    · rename_i htlv
      rw [slice_mid (by simp) (by simp), ok_bind, uint16_putUint16, ok_bind] at h
      dsimp only at h
      split at h
      · cases h
      rename_i hfits
      simp only [List.length_append, length_putUint16] at hfits
      have hv := UInt16.toNat_lt v
      have htake : (tail.take v.toNat).length = v.toNat := by
        rw [List.length_take]
        omega
      refine ⟨.tlv af (tail.take v.toNat) ((and_high af).mp (not_not.mp htlv)) (by omega),
        tail.drop v.toNat, ?_⟩
      rw [RawAttr.bytes, htake, UInt16.ofNat_toNat]
      simp only [List.append_assoc, List.take_append_drop]
  · rintro ⟨r, rfl, rfl⟩
    exact parseAttr_bytes tlen r rest

theorem parseTransform_bytes (t : RawTransform) (rest : Bytes) :
    parseTransform (t.bytes ++ rest) = .ok (t.decoded, rest) := by
  have hattrs : readAll (parseAttr (8 + t.attr.length)) t.attr =
      .ok (t.attrs.map RawAttr.keyLength) :=
    ((accepts_parseAttr _).readAll (parseAttr_consumes _) _ _).mpr ⟨t.attrs, rfl, rfl⟩
  rw [RawTransform.bytes]
  simp only [List.append_assoc]
  exact parseTransform_append t.fits hattrs rest

theorem accepts_parseTransform :
    Accepts parseTransform RawTransform.bytes RawTransform.decoded := by
  intro b t rest
  constructor
  · intro h
    suffices hshape : ∃ (r : RawTransform) (rest' : Bytes), b = r.bytes ++ rest' by
      obtain ⟨r, rest', rfl⟩ := hshape
      rw [parseTransform_bytes] at h
      cases h
      exact ⟨r, rfl, rfl⟩
    unfold parseTransform at h
    split at h
    · cases h
    rename_i hlen
    obtain ⟨x, y, b, rfl⟩ := exists_two (b := b) (by omega)
    obtain ⟨v, b, rfl⟩ := exists_number (b := b) (by simp at hlen; omega)
    obtain ⟨z, w, b, rfl⟩ := exists_two (b := b) (by simp at hlen; omega)
    obtain ⟨id, tail, rfl⟩ := exists_number (b := b) (by simp at hlen; omega)
    rw [slice_mid (by simp) (by simp), ok_bind, uint16_putUint16, ok_bind] at h
    dsimp only at h
    split at h
    · cases h
    split at h
    · cases h
    rename_i hmin hmax
    simp only [bind_eq_ok] at h
    obtain ⟨_, -, _, -, _, -, attr, hattr, as, has, -⟩ := h
    have hv := UInt16.toNat_lt v
    simp only [List.length_append, List.length_cons, List.length_nil, length_putUint16] at hmax
    have hattr' : attr = tail.take (v.toNat - 8) := by
      have hfront : ([x, y] ++ (putUint16 v ++ ([z, w] ++ putUint16 id))).length = 8 := by simp
      have hsplit : [x, y] ++ (putUint16 v ++ ([z, w] ++ (putUint16 id ++ tail))) =
          ([x, y] ++ (putUint16 v ++ ([z, w] ++ putUint16 id))) ++ tail := by
        simp only [List.append_assoc]
      rw [hsplit, slice_append_of_ge (Nat.le_of_eq hfront) (by omega), hfront, Nat.sub_self,
        slice_ok (Nat.zero_le _) (by omega), List.drop_zero] at hattr
      exact (Except.ok.inj hattr).symm
    have hlength : attr.length = v.toNat - 8 := by
      rw [hattr', List.length_take]
      omega
    obtain ⟨attrs, hattrs, -⟩ := ((accepts_parseAttr _).readAll (parseAttr_consumes _) _ _).mp has
    refine ⟨⟨x, y, z, w, id, attrs, by rw [← hattrs]; omega⟩, tail.drop (v.toNat - 8), ?_⟩
    have hself : UInt16.ofNat (8 + attr.length) = v := by
      rw [hlength, Nat.add_sub_cancel' (Nat.le_of_not_lt hmin), UInt16.ofNat_toNat]
    change _ = [x, y] ++ (putUint16 (UInt16.ofNat (8 + (attrs.map RawAttr.bytes).flatten.length)) ++
      ([z, w] ++ (putUint16 id ++ (attrs.map RawAttr.bytes).flatten))) ++ tail.drop (v.toNat - 8)
    rw [← hattrs, hself, hattr']
    simp only [List.append_assoc, List.take_append_drop]
  · rintro ⟨r, rfl, rfl⟩
    exact parseTransform_bytes r rest

/-! ## Inserting an attribute -/

theorem lastKeyLength_insert (before after : List (Option UInt16)) :
    lastKeyLength (before ++ none :: after) = lastKeyLength (before ++ after) := by
  simp only [lastKeyLength, List.foldl_append, List.foldl_cons, Option.none_or]

theorem lastKeyLength_of_none {as : List (Option UInt16)} (h : ∀ a ∈ as, a = none) :
    ∀ acc, as.foldl (fun acc a => a.or acc) acc = acc := by
  induction as with
  | nil => exact fun _ => rfl
  | cons a as ih =>
      obtain rfl := h a List.mem_cons_self
      exact ih fun b hb => h b (List.mem_cons_of_mem _ hb)

theorem lastKeyLength_last {before after : List (Option UInt16)} (v : UInt16)
    (h : ∀ a ∈ after, a = none) : lastKeyLength (before ++ some v :: after) = some v := by
  rw [lastKeyLength, List.foldl_append, List.foldl_cons, Option.some_or, lastKeyLength_of_none h]

/-- Another transform on the wire, alike but for an attribute `x` that is no TV Key Length. -/
structure Inserts (t t' : RawTransform) (x : RawAttr) : Prop where
  type : t'.type = t.type
  id : t'.id = t.id
  attrs : ∃ before after, t.attrs = before ++ after ∧ t'.attrs = before ++ x :: after
  keyLength : x.keyLength = none

theorem Inserts.decoded {t t' : RawTransform} {x : RawAttr} (h : Inserts t t' x) :
    t'.decoded = t.decoded := by
  obtain ⟨htype, hid, ⟨before, after, hattrs, hattrs'⟩, hx⟩ := h
  rw [RawTransform.decoded, RawTransform.decoded, htype, hid, hattrs, hattrs', List.map_append,
    List.map_cons, hx, lastKeyLength_insert, List.map_append]

/-- `t` has the type and the identifier of `r`, and the key length of its last TV Key Length. -/
structure Keyed (r : RawTransform) (t : Transform) : Prop where
  type : t.type = r.type
  id : t.id = r.id
  last : ∀ before v htype after, r.attrs = before ++ .tv attrKeyLength v htype :: after →
    (∀ a ∈ after, a.keyLength = none) → t.hasKeyLength = true ∧ t.keyLength = v
  absent : (∀ a ∈ r.attrs, a.keyLength = none) → t.hasKeyLength = false

theorem keyed_decoded (r : RawTransform) : Keyed r r.decoded := by
  have hnone {as : List RawAttr} (h : ∀ a ∈ as, a.keyLength = none) :
      ∀ a ∈ as.map RawAttr.keyLength, a = none := by
    intro a ha
    obtain ⟨b, hb, rfl⟩ := List.mem_map.mp ha
    exact h b hb
  refine ⟨?_, ?_, fun before v htype after hattrs hafter => ?_, fun hall => ?_⟩
  · unfold RawTransform.decoded
    cases lastKeyLength (r.attrs.map RawAttr.keyLength) <;> rfl
  · unfold RawTransform.decoded
    cases lastKeyLength (r.attrs.map RawAttr.keyLength) <;> rfl
  · have hlast : lastKeyLength (r.attrs.map RawAttr.keyLength) = some v := by
      rw [hattrs, List.map_append, List.map_cons]
      exact lastKeyLength_last v (hnone hafter)
    rw [RawTransform.decoded, hlast]
    exact ⟨rfl, rfl⟩
  · have hlast : lastKeyLength (r.attrs.map RawAttr.keyLength) = none :=
      lastKeyLength_of_none (hnone hall) none
    rw [RawTransform.decoded, hlast]
    rfl

/-- The octets of transforms, one after the other. -/
def transformBytes (rs : List RawTransform) : Bytes := (rs.map RawTransform.bytes).flatten

theorem parseTransforms_iff (body : Bytes) (ts : List Transform) :
    parseTransforms body = .ok ts ↔
      ∃ rs, body = transformBytes rs ∧ rs.map RawTransform.decoded = ts :=
  accepts_parseTransform.readAll parseTransform_consumes body ts

theorem keyed_of_parse {rs : List RawTransform} {ts : List Transform}
    (h : rs.map RawTransform.decoded = ts) : List.Forall₂ Keyed rs ts := by
  subst h
  induction rs with
  | nil => exact .nil
  | cons r rs ih => exact .cons (keyed_decoded r) ih

/-! ## Extensions are transparent -/

/-- An accepted chain is threaded, and away from the back of an encrypted payload it takes
a payload without a model: unseen with the Critical bit clear, fatal with the bit set.
Accepted transforms are written with attributes, take any attribute but a TV Key Length
unseen, and have the key length of the last of those. -/
theorem extensions_transparent :
    (∀ first body ps, parseChain first body = .ok ps →
      ∃ last rs, first = headType last rs ∧ body = threaded last rs ∧
        ∀ before after x, rs = before ++ after → (∀ r ∈ before.getLast?, r.type ≠ payloadSK) →
          x.Unmodelled →
          let spliced := before ++ x :: after
          (¬x.Critical → parseChain (headType last spliced) (threaded last spliced) = .ok ps) ∧
          (x.Critical → ∃ text,
            parseChain (headType last spliced) (threaded last spliced) = .error (.err text))) ∧
    (∀ body ts, parseTransforms body = .ok ts →
      ∃ rs, body = transformBytes rs ∧ List.Forall₂ Keyed rs ts ∧
        ∀ before t after t' x, rs = before ++ t :: after → Inserts t t' x →
          parseTransforms (transformBytes (before ++ t' :: after)) = .ok ts) := by
  refine ⟨fun first body ps h => ?_, fun body ts h => ?_⟩
  · obtain ⟨last, rs, rfl, rfl⟩ := exists_threaded h
    rw [parseChain_threaded] at h
    refine ⟨last, rs, rfl, rfl, ?_⟩
    rintro before after x rfl hsk hx
    have hsplice := decodeChain_splice hsk hx h
    rw [← parseChain_threaded] at hsplice
    exact ⟨fun hclear => hsplice.trans (if_neg hclear), fun hset => ⟨_, hsplice.trans (if_pos hset)⟩⟩
  · obtain ⟨rs, rfl, hts⟩ := (parseTransforms_iff body ts).mp h
    refine ⟨rs, rfl, keyed_of_parse hts, ?_⟩
    rintro before t after t' x rfl hins
    refine (parseTransforms_iff _ ts).mpr ⟨before ++ t' :: after, rfl, ?_⟩
    rw [← hts, List.map_append, List.map_append, List.map_cons, List.map_cons, hins.decoded]

/-- A nonce payload, the last of its message. -/
def sampleNonce : Bytes := [0, 0, 0, 20] ++ List.replicate 16 7

/-- A payload of a type that has no model. -/
def sampleExtension (flags : UInt8) : RawPayload := ⟨200, flags, [1], by decide⟩

/-- AES in CBC mode with keys of 256 bits. -/
def sampleTransforms : Bytes := [0, 0, 0, 12, 1, 0, 0, 12, 0x80, 14, 1, 0]

/-- An attribute of the type of the key length, with the format that key lengths do not have. -/
def sampleAttr : RawAttr := .tlv 14 [9] (by decide) (by decide)

/-- A payload of type 200 in front of a nonce is not seen, and is fatal if it is critical.  An
attribute in front of a key length is not seen either. -/
theorem extensions_transparent_sample :
    parseChain payloadNonce sampleNonce = .ok [.nonce ⟨List.replicate 16 7⟩] ∧
    parseChain 200 ([40, 0, 0, 5, 1] ++ sampleNonce) = .ok [.nonce ⟨List.replicate 16 7⟩] ∧
    (∃ text, parseChain 200 ([40, 0x80, 0, 5, 1] ++ sampleNonce) = .error (.err text)) ∧
    parseTransforms sampleTransforms = .ok [transformOf 1 12 (some 256)] ∧
    parseTransforms [0, 0, 0, 17, 1, 0, 0, 12, 0, 14, 0, 1, 9, 0x80, 14, 1, 0] =
      .ok [transformOf 1 12 (some 256)] := by
  have hchain : parseChain payloadNonce sampleNonce = .ok [.nonce ⟨List.replicate 16 7⟩] := by
    decide +kernel
  have htransforms : parseTransforms sampleTransforms = .ok [transformOf 1 12 (some 256)] := by
    decide +kernel
  obtain ⟨last, rs, hfirst, hbody, hsplice⟩ := extensions_transparent.1 _ _ _ hchain
  have hfront (flags : UInt8) : threaded last ([] ++ sampleExtension flags :: rs) =
      (sampleExtension flags).bytes payloadNonce ++ sampleNonce := by
    rw [List.nil_append, threaded, ← hfirst, ← hbody]
  obtain ⟨hclear, -⟩ := hsplice [] rs (sampleExtension 0) rfl (by simp) fun _ => rfl
  obtain ⟨-, hset⟩ := hsplice [] rs (sampleExtension 0x80) rfl (by simp) fun _ => rfl
  rw [hfront] at hclear hset
  obtain ⟨ts, hts, hkeyed, hinsert⟩ := extensions_transparent.2 _ _ htransforms
  obtain ⟨r, rfl⟩ : ∃ r, ts = [r] := List.length_eq_one_iff.mp hkeyed.length_eq
  obtain ⟨htype, hid, -, -⟩ := (List.forall₂_cons.mp hkeyed).1
  have hattr : r.attr = [0x80, 14, 1, 0] := (List.append_nil _).symm.trans
    (congrArg (List.drop 8) hts).symm
  have hfits : 8 + (sampleAttr.bytes ++ r.attr).length ≤ 65535 := by
    rw [hattr]
    decide
  have hwire : transformBytes [⟨0, 0, 1, 0, 12, sampleAttr :: r.attrs, hfits⟩] =
      [0, 0, 0, 17, 1, 0, 0, 12, 0, 14, 0, 1, 9, 0x80, 14, 1, 0] := by
    change [0, 0] ++ (putUint16 (UInt16.ofNat (8 + (sampleAttr.bytes ++ r.attr).length)) ++
      ([1, 0] ++ (putUint16 12 ++ (sampleAttr.bytes ++ r.attr)))) ++ [] = _
    rw [hattr]
    decide
  have hins := hinsert [] r [] ⟨0, 0, 1, 0, 12, sampleAttr :: r.attrs, hfits⟩ sampleAttr rfl
    ⟨htype, hid, ⟨[], r.attrs, rfl, rfl⟩, rfl⟩
  refine ⟨hchain, hclear (not_not_intro rfl), hset (show (0x80 : UInt8) &&& criticalBit ≠ 0 by decide), htransforms, ?_⟩
  rwa [List.nil_append, hwire] at hins

end GoIpsec.Ikemsg
