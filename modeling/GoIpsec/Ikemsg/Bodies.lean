import Mathlib.Algebra.Order.BigOperators.Group.List
import Mathlib.Data.List.Forall2
import GoIpsec.Ikemsg.Message

/-!
# Round trips of the payload bodies

For each kind of payload: its well-formed domain, the number of octets its body
takes, and the theorem that on this domain the encoder succeeds, writes that
many octets, and the decoder gives the payload back.

The size is a function of the payload, not of its encoding.  So a bound on the
size of a message can be stated without assuming that it has an encoding.
-/

namespace GoIpsec.Ikemsg

open Golang

/-- `marshal` writes `n` octets, and `unmarshal` reads `a` back from them. -/
def RoundTrips {α : Type} (marshal : Go Bytes) (n : Nat) (unmarshal : Bytes → Go α) (a : α) : Prop :=
  ∃ body, marshal = .ok body ∧ body.length = n ∧ unmarshal body = .ok a

/-! ## Transforms -/

/-- A key length is only set together with the flag that it is there. -/
def Transform.WF (t : Transform) : Prop := t.keyLength ≠ 0 → t.hasKeyLength = true

instance (t : Transform) : Decidable t.WF := inferInstanceAs (Decidable (_ → _))

/-- The octets of a transform substructure. -/
def Transform.size (t : Transform) : Nat := if t.hasKeyLength then 12 else 8

/-- The attributes of an encoded transform. -/
def Transform.attr (t : Transform) : Bytes :=
  if t.hasKeyLength then keyLengthAttr t.keyLength else []

theorem Transform.length_attr (t : Transform) : 8 + t.attr.length = t.size := by
  unfold Transform.attr Transform.size
  split <;> simp [keyLengthAttr]

theorem Transform.size_le (t : Transform) : t.size ≤ 12 := by
  unfold Transform.size
  split <;> omega

theorem parseAttr_consumes (tlen : Nat) (b : Bytes) (a : Option UInt16) (rest : Bytes)
    (h : parseAttr tlen b = .ok (a, rest)) : rest.length < b.length := by
  unfold parseAttr at h
  split at h
  · cases h
  · simp only [bind_eq_ok] at h
    obtain ⟨_, _, af, _, h⟩ := h
    split at h
    · simp only [bind_eq_ok, pure_eq_ok, Except.ok.injEq, Prod.mk.injEq] at h
      obtain ⟨_, _, _, _, r, hr, _, rfl⟩ := h
      obtain ⟨hle, rfl⟩ := sliceFrom_eq_ok hr
      rw [List.length_drop]
      omega
    · simp only [bind_eq_ok] at h
      obtain ⟨_, _, alen, _, h⟩ := h
      split at h
      · cases h
      · simp only [bind_eq_ok, pure_eq_ok, Except.ok.injEq, Prod.mk.injEq] at h
        obtain ⟨r, hr, _, rfl⟩ := h
        obtain ⟨hle, rfl⟩ := sliceFrom_eq_ok hr
        rw [List.length_drop]
        omega

theorem reads_keyLengthAttr (tlen : Nat) (k : UInt16) :
    Reads (parseAttr tlen) (keyLengthAttr k) (some k) := by
  intro rest
  have hlen : ¬ (keyLengthAttr k ++ rest).length < 4 := by simp [keyLengthAttr]; omega
  have htype : slice (keyLengthAttr k ++ rest) 0 2 = .ok (putUint16 (0x8000 ||| attrKeyLength)) := by
    rw [keyLengthAttr, List.append_assoc, slice_append_of_le (by simp), slice_all (by simp)]
  have hval : slice (keyLengthAttr k ++ rest) 2 4 = .ok (putUint16 k) := by
    rw [keyLengthAttr, List.append_assoc, slice_mid (by simp) (by simp)]
  have hrest : sliceFrom (keyLengthAttr k ++ rest) 4 = .ok rest :=
    sliceFrom_append (by simp [keyLengthAttr])
  rw [parseAttr, if_neg hlen, htype, ok_bind, uint16_putUint16, ok_bind, if_pos (by decide), hval,
    ok_bind, uint16_putUint16, ok_bind, hrest]
  rfl

/-- The attributes of an encoded transform give its key length back. -/
theorem Transform.readAll_attr (tlen : Nat) (t : Transform) :
    readAll (parseAttr tlen) t.attr = .ok (if t.hasKeyLength then [some t.keyLength] else []) := by
  rw [Transform.attr]
  cases t.hasKeyLength with
  | false => simp [readAll]
  | true =>
      have h := readAll_flatten (parseAttr_consumes tlen) (.cons (reads_keyLengthAttr tlen t.keyLength) .nil)
      rwa [List.flatten_cons, List.flatten_nil, List.append_nil] at h

theorem parseTransform_consumes (b : Bytes) (t : Transform) (rest : Bytes)
    (h : parseTransform b = .ok (t, rest)) : rest.length < b.length := by
  unfold parseTransform at h
  split at h
  · cases h
  · simp only [bind_eq_ok] at h
    obtain ⟨_, _, tlen, _, h⟩ := h
    split at h
    · cases h
    · split at h
      · cases h
      · simp only [bind_eq_ok] at h
        obtain ⟨_, _, _, _, _, _, _, _, as, _, r, hr, h⟩ := h
        obtain ⟨hle, rfl⟩ := sliceFrom_eq_ok hr
        have hrest : b.drop tlen.toNat = rest := by
          cases hk : lastKeyLength as <;> rw [hk] at h <;> cases h <;> rfl
        rw [← hrest, List.length_drop]
        omega

/-- A transform with the key length its attributes give. -/
def transformOf (type : TransformType) (id : UInt16) : Option UInt16 → Transform
  | some v => { type, id, keyLength := v, hasKeyLength := true }
  | none => { type, id }

theorem parseTransform_append {x y z type : UInt8} {id : UInt16} {attr : Bytes}
    {as : List (Option UInt16)} (hfits : 8 + attr.length ≤ 65535)
    (has : readAll (parseAttr (8 + attr.length)) attr = .ok as) (rest : Bytes) :
    parseTransform ([x, y] ++ (putUint16 (UInt16.ofNat (8 + attr.length)) ++
      ([type, z] ++ (putUint16 id ++ (attr ++ rest))))) =
        .ok (transformOf type id (lastKeyLength as), rest) := by
  have htlen : (UInt16.ofNat (8 + attr.length)).toNat = 8 + attr.length := by
    rw [UInt16.toNat_ofNat']
    omega
  generalize hb : [x, y] ++ (putUint16 (UInt16.ofNat (8 + attr.length)) ++
    ([type, z] ++ (putUint16 id ++ (attr ++ rest)))) = b
  have hblen : b.length = 8 + attr.length + rest.length := by rw [← hb]; simp; omega
  have hlength : slice b 2 4 = .ok (putUint16 (UInt16.ofNat (8 + attr.length))) := by
    rw [← hb, slice_mid (by simp) (by simp)]
  have htype : index b 4 = .ok type := by
    rw [← hb, index_append_of_ge (by simp), index_append_of_ge (by simp)]
    simp
  have hid : slice b 6 8 = .ok (putUint16 id) := by
    rw [← hb, slice_append_of_ge (by simp) (by simp), slice_append_of_ge (by simp) (by simp),
      slice_mid (by simp) (by simp)]
  have hattr : slice b 8 (8 + attr.length) = .ok attr := by
    rw [← hb, slice_append_of_ge (by simp) (by simp), slice_append_of_ge (by simp) (by simp; omega),
      slice_append_of_ge (by simp) (by simp; omega), slice_mid (by simp) (by simp; omega)]
  have hrest : sliceFrom b (8 + attr.length) = .ok rest := by
    rw [← hb, ← List.append_assoc, ← List.append_assoc, ← List.append_assoc, ← List.append_assoc,
      sliceFrom_append (by simp; omega)]
  rw [parseTransform, if_neg (by omega), hlength, ok_bind, uint16_putUint16, ok_bind]
  simp only [htlen]
  rw [if_neg (by omega), if_neg (by omega), htype, ok_bind, hid, ok_bind, uint16_putUint16, ok_bind,
    hattr, ok_bind, has, ok_bind, hrest, ok_bind]
  cases lastKeyLength as <;> rfl

theorem marshalTransform_encodes {t : Transform} (h : t.WF) (more : Bool) :
    Encodes (marshalTransform t more) t.size parseTransform t := by
  have hguard : ¬ (t.keyLength ≠ 0 ∧ t.hasKeyLength = false) := by
    rintro ⟨h0, h1⟩
    rw [h h0] at h1
    cases h1
  have hsize := t.length_attr
  have hle := t.size_le
  refine ⟨[if more then 3 else 0, 0] ++ (putUint16 (UInt16.ofNat (8 + t.attr.length)) ++
    ([t.type, 0] ++ (putUint16 t.id ++ t.attr))), ?_, by simp; omega, ?_⟩
  · rw [marshalTransform, if_neg hguard]
    rfl
  intro rest
  simp only [List.append_assoc]
  rw [parseTransform_append (by omega) (t.readAll_attr _)]
  obtain ⟨type, id, keyLength, hasKeyLength⟩ := t
  cases hasKeyLength with
  | true => rfl
  | false =>
      have h0 : keyLength = 0 := by
        by_contra hne
        cases h hne
      subst h0
      rfl

/-! ## Proposals -/

def Proposal.WF (p : Proposal) : Prop :=
  p.spi.length ≤ 255 ∧ p.transforms.length ≤ 255 ∧ ∀ t ∈ p.transforms, t.WF

instance (p : Proposal) : Decidable p.WF := inferInstanceAs (Decidable (_ ∧ _))

/-- The octets of a proposal substructure. -/
def Proposal.size (p : Proposal) : Nat :=
  8 + p.spi.length + (p.transforms.map Transform.size).sum

theorem sum_transform_sizes (ts : List Transform) :
    (ts.map Transform.size).sum ≤ 12 * ts.length := by
  induction ts with
  | nil => simp
  | cons t ts ih =>
      have ht := t.size_le
      rw [List.map_cons, List.sum_cons, List.length_cons]
      omega

theorem parseProposal_consumes (b : Bytes) (p : Proposal) (rest : Bytes)
    (h : parseProposal b = .ok (p, rest)) : rest.length < b.length := by
  unfold parseProposal at h
  split at h
  · cases h
  · simp only [bind_eq_ok] at h
    obtain ⟨_, _, plen, _, h⟩ := h
    split at h
    · cases h
    · split at h
      · cases h
      · simp only [bind_eq_ok] at h
        obtain ⟨_, _, h⟩ := h
        split at h
        · cases h
        · simp only [bind_eq_ok, pure_eq_ok, Except.ok.injEq, Prod.mk.injEq] at h
          obtain ⟨_, _, _, _, _, _, _, _, _, _, r, hr, _, rfl⟩ := h
          obtain ⟨hle, rfl⟩ := sliceFrom_eq_ok hr
          rw [List.length_drop]
          omega

theorem marshalProposal_encodes {p : Proposal} (h : p.WF) (more : Bool) :
    Encodes (marshalProposal p more) p.size parseProposal p := by
  obtain ⟨hspi, hcount, hts⟩ := h
  obtain ⟨es, hes, hlen, hreads⟩ :=
    writeAll_encodes fun t ht more => marshalTransform_encodes (hts t ht) more
  have hparse : parseTransforms es.flatten = .ok p.transforms :=
    readAll_flatten parseTransform_consumes hreads
  have hsum := sum_transform_sizes p.transforms
  generalize es.flatten = td at hes hlen hparse
  generalize hn : 8 + p.spi.length + td.length = n
  have hplen : (UInt16.ofNat n).toNat = n := by rw [UInt16.toNat_ofNat']; omega
  have hsize : (UInt8.ofNat p.spi.length).toNat = p.spi.length := by
    rw [UInt8.toNat_ofNat']
    omega
  refine ⟨[if more then 2 else 0, 0] ++ (putUint16 (UInt16.ofNat n) ++ ([p.number, p.protocol,
    UInt8.ofNat p.spi.length, UInt8.ofNat p.transforms.length] ++ (p.spi ++ td))), ?_, ?_, ?_⟩
  · rw [marshalProposal, if_neg (by omega), if_neg (by omega), marshalTransforms, hes, ok_bind, hn]
    rfl
  · rw [Proposal.size, ← hlen]
    simp
    omega
  intro rest
  simp only [List.append_assoc]
  generalize hb : [if more then 2 else 0, 0] ++ (putUint16 (UInt16.ofNat n) ++ ([p.number,
    p.protocol, UInt8.ofNat p.spi.length, UInt8.ofNat p.transforms.length] ++
      (p.spi ++ (td ++ rest)))) = b
  have hblen : b.length = n + rest.length := by rw [← hb]; simp; omega
  have hlength : slice b 2 4 = .ok (putUint16 (UInt16.ofNat n)) := by
    rw [← hb, slice_mid (by simp) (by simp)]
  have hindex (i : Nat) (x : UInt8) (hx : index [p.number, p.protocol, UInt8.ofNat p.spi.length,
      UInt8.ofNat p.transforms.length] i = .ok x) (hi : i < 4) : index b (4 + i) = .ok x := by
    rw [← hb, index_append_of_ge (by simp; omega), index_append_of_ge (by simp; omega),
      index_append_of_lt (by simp; omega), ← hx]
    congr 1
    simp
    omega
  have hspis : slice b 8 (8 + p.spi.length) = .ok p.spi := by
    rw [← hb, slice_append_of_ge (by simp) (by simp), slice_append_of_ge (by simp) (by simp; omega),
      slice_mid (by simp) (by simp; omega)]
  have htd : slice b (8 + p.spi.length) n = .ok td := by
    rw [← hb, slice_append_of_ge (by simp; omega) (by omega),
      slice_append_of_ge (by simp; omega) (by simp; omega),
      slice_append_of_ge (by simp; omega) (by simp; omega),
      slice_mid (by simp; omega) (by simp; omega)]
  have hrest : sliceFrom b n = .ok rest := by
    rw [← hb, ← List.append_assoc, ← List.append_assoc, ← List.append_assoc, ← List.append_assoc,
      sliceFrom_append (by simp; omega)]
  rw [parseProposal, if_neg (by omega), hlength, ok_bind, uint16_putUint16, ok_bind]
  simp only [hplen]
  rw [if_neg (by omega), if_neg (by omega), hindex 2 _ rfl (by omega), ok_bind, hsize,
    if_neg (by omega), hindex 0 _ rfl (by omega), ok_bind, hindex 1 _ rfl (by omega), ok_bind, hspis,
    ok_bind, htd, ok_bind, hparse, ok_bind, hrest]
  rfl

theorem SAPayload.roundTrips {sa : SAPayload} (h : ∀ p ∈ sa.proposals, p.WF) :
    RoundTrips sa.marshalBody (sa.proposals.map Proposal.size).sum SAPayload.unmarshalBody sa := by
  obtain ⟨es, hes, hlen, hreads⟩ :=
    writeAll_encodes fun p hp more => marshalProposal_encodes (h p hp) more
  refine ⟨es.flatten, hes, hlen, ?_⟩
  rw [SAPayload.unmarshalBody, readAll_flatten parseProposal_consumes hreads]
  rfl

/-! ## Payloads of one header and opaque data -/

theorem KEPayload.roundTrips (ke : KEPayload) :
    RoundTrips ke.marshalBody (4 + ke.data.length) KEPayload.unmarshalBody ke := by
  refine ⟨_, rfl, by simp; omega, ?_⟩
  rw [KEPayload.unmarshalBody, if_neg (by simp; omega), slice_append_of_le (by simp),
    slice_all (by simp), ok_bind, uint16_putUint16, ok_bind, ← List.append_assoc,
    sliceFrom_append (by simp)]
  rfl

theorem NoncePayload.roundTrips {n : NoncePayload}
    (h : minNonceLen ≤ n.data.length ∧ n.data.length ≤ maxNonceLen) :
    RoundTrips n.marshalBody n.data.length NoncePayload.unmarshalBody n := by
  refine ⟨_, rfl, rfl, ?_⟩
  rw [NoncePayload.unmarshalBody]
  exact if_neg (by omega)

theorem parseIDBody_marshalIDBody (what : String) (idType : UInt8) (data : Bytes) :
    parseIDBody what (marshalIDBody idType data) = .ok (idType, data) := by
  rw [parseIDBody, if_neg (by simp [marshalIDBody]), marshalIDBody, sliceFrom_append (by simp)]
  rfl

theorem length_marshalIDBody (idType : UInt8) (data : Bytes) :
    (marshalIDBody idType data).length = 4 + data.length := by
  simp [marshalIDBody]
  omega

theorem IDiPayload.roundTrips (id : IDiPayload) :
    RoundTrips id.marshalBody (4 + id.data.length) IDiPayload.unmarshalBody id := by
  refine ⟨_, rfl, length_marshalIDBody _ _, ?_⟩
  rw [IDiPayload.unmarshalBody, parseIDBody_marshalIDBody]
  rfl

theorem IDrPayload.roundTrips (id : IDrPayload) :
    RoundTrips id.marshalBody (4 + id.data.length) IDrPayload.unmarshalBody id := by
  refine ⟨_, rfl, length_marshalIDBody _ _, ?_⟩
  rw [IDrPayload.unmarshalBody, parseIDBody_marshalIDBody]
  rfl

theorem AuthPayload.roundTrips (a : AuthPayload) :
    RoundTrips a.marshalBody (4 + a.data.length) AuthPayload.unmarshalBody a := by
  refine ⟨_, rfl, length_marshalIDBody _ _, ?_⟩
  rw [AuthPayload.unmarshalBody, parseIDBody_marshalIDBody]
  rfl

theorem parseCertBody_marshalCertBody (what : String) (encoding : UInt8) (data : Bytes) :
    parseCertBody what (marshalCertBody encoding data) = .ok (encoding, data) := by
  have htail : sliceFrom (encoding :: data) 1 = .ok data := by
    rw [sliceFrom_ok (by simp), List.drop_one, List.tail_cons]
  rw [parseCertBody, if_neg (by simp [marshalCertBody]), marshalCertBody, index_cons_zero, ok_bind,
    htail]
  rfl

theorem CertPayload.roundTrips (c : CertPayload) :
    RoundTrips c.marshalBody (1 + c.data.length) CertPayload.unmarshalBody c := by
  refine ⟨_, rfl, Nat.add_comm _ _, ?_⟩
  rw [CertPayload.unmarshalBody, parseCertBody_marshalCertBody]
  rfl

theorem CertRequestPayload.roundTrips (c : CertRequestPayload) :
    RoundTrips c.marshalBody (1 + c.data.length) CertRequestPayload.unmarshalBody c := by
  refine ⟨_, rfl, Nat.add_comm _ _, ?_⟩
  rw [CertRequestPayload.unmarshalBody, parseCertBody_marshalCertBody]
  rfl

/-! ## Notify and delete -/

theorem NotifyPayload.roundTrips {n : NotifyPayload} (h : n.spi.length ≤ 255) :
    RoundTrips n.marshalBody (4 + n.spi.length + n.data.length) NotifyPayload.unmarshalBody n := by
  refine ⟨_, rfl, by simp; omega, ?_⟩
  generalize hb : [n.protocol, UInt8.ofNat n.spi.length] ++ (putUint16 n.type ++ (n.spi ++ n.data)) = b
  have hblen : b.length = 4 + n.spi.length + n.data.length := by rw [← hb]; simp; omega
  have hprotocol : index b 0 = .ok n.protocol := by rw [← hb]; rfl
  have hindex : index b 1 = .ok (UInt8.ofNat n.spi.length) := by rw [← hb]; rfl
  have hsize : (UInt8.ofNat n.spi.length).toNat = n.spi.length := by
    rw [UInt8.toNat_ofNat']
    omega
  have htype : slice b 2 4 = .ok (putUint16 n.type) := by rw [← hb, slice_mid (by simp) (by simp)]
  have hspi : slice b 4 (4 + n.spi.length) = .ok n.spi := by
    rw [← hb, slice_append_of_ge (by simp) (by simp), slice_mid (by simp) (by simp; omega)]
  have hdata : sliceFrom b (4 + n.spi.length) = .ok n.data := by
    rw [← hb, ← List.append_assoc, ← List.append_assoc, sliceFrom_append (by simp; omega)]
  rw [NotifyPayload.unmarshalBody, if_neg (by omega), hindex, ok_bind]
  simp only [hsize]
  rw [if_neg (by omega), hprotocol, ok_bind, htype, ok_bind, uint16_putUint16, ok_bind, hspi, ok_bind,
    hdata]
  rfl

/-- The SPIs are of one width, which an octet holds. -/
def DeletePayload.WF (d : DeletePayload) : Prop :=
  ∀ spi ∈ d.spis, 1 ≤ spi.length ∧ spi.length ≤ 255 ∧ ∀ other ∈ d.spis, other.length = spi.length

instance (d : DeletePayload) : Decidable d.WF := inferInstanceAs (Decidable (∀ spi ∈ d.spis, _))

theorem reads_parseSPI {size : Nat} {spi : Bytes} (h : spi.length = size) :
    Reads (parseSPI size) spi spi := by
  intro rest
  rw [parseSPI, slice_append_of_le (by omega), slice_all h.symm, ok_bind, sliceFrom_append h.symm]
  rfl

theorem DeletePayload.WF.length_eq {d : DeletePayload} (h : d.WF) :
    ∀ spi ∈ d.spis, spi.length = d.spiSize.toNat := by
  intro spi hspi
  unfold DeletePayload.spiSize
  cases hs : d.spis with
  | nil =>
      rw [hs] at hspi
      cases hspi
  | cons first others =>
      have hfirst : first ∈ d.spis := hs ▸ List.mem_cons_self
      obtain ⟨_, hle, heq⟩ := h first hfirst
      rw [heq spi hspi]
      simp only [UInt8.toNat_ofNat']
      omega

theorem length_flatten_of_width {w : Nat} :
    ∀ {spis : List Bytes}, (∀ spi ∈ spis, spi.length = w) → spis.flatten.length = w * spis.length
  | [], _ => rfl
  | spi :: spis, h => by
      rw [List.flatten_cons, List.length_append, h spi List.mem_cons_self,
        length_flatten_of_width fun x hx => h x (List.mem_cons_of_mem _ hx), List.length_cons,
        Nat.mul_succ, Nat.add_comm]

theorem DeletePayload.roundTrips {d : DeletePayload} (h : d.WF)
    (hn : 4 + d.spis.flatten.length ≤ 65531) :
    RoundTrips d.marshalBody (4 + d.spis.flatten.length) DeletePayload.unmarshalBody d := by
  have hw := h.length_eq
  have hall : (d.spis.all fun spi => UInt8.ofNat spi.length == d.spiSize) = true := by
    rw [List.all_eq_true]
    intro spi hspi
    rw [hw spi hspi, UInt8.ofNat_toNat]
    exact beq_self_eq_true _
  have hflat := length_flatten_of_width hw
  -- no SPI is empty, so the size of the body bounds their number
  have hpos : d.spiSize.toNat = 0 → d.spis.length = 0 := by
    intro h0
    cases hs : d.spis with
    | nil => rfl
    | cons first others =>
        have hfirst : first ∈ d.spis := hs ▸ List.mem_cons_self
        have := (h first hfirst).1
        rw [hw first hfirst] at this
        omega
  have hcount : d.spis.length ≤ d.spis.flatten.length := by
    rw [hflat]
    rcases Nat.eq_zero_or_pos d.spiSize.toNat with h0 | h0
    · rw [hpos h0]
      exact Nat.zero_le _
    · exact Nat.le_mul_of_pos_left _ h0
  have hu16 : (UInt16.ofNat d.spis.length).toNat = d.spis.length := by
    rw [UInt16.toNat_ofNat']
    omega
  refine ⟨[d.protocol, d.spiSize] ++ (putUint16 (UInt16.ofNat d.spis.length) ++ d.spis.flatten), ?_,
    by simp; omega, ?_⟩
  · rw [DeletePayload.marshalBody, if_pos hall]
  have hreads : List.Forall₂ (Reads (parseSPI d.spiSize.toNat)) d.spis d.spis :=
    List.forall₂_same.mpr fun spi hspi => reads_parseSPI (hw spi hspi)
  have hread := readN_flatten hreads []
  rw [List.append_nil] at hread
  generalize hb : [d.protocol, d.spiSize] ++ (putUint16 (UInt16.ofNat d.spis.length) ++
    d.spis.flatten) = b
  have hblen : b.length = 4 + d.spis.flatten.length := by rw [← hb]; simp; omega
  have hprotocol : index b 0 = .ok d.protocol := by rw [← hb]; rfl
  have hsize : index b 1 = .ok d.spiSize := by rw [← hb]; rfl
  have hnum : slice b 2 4 = .ok (putUint16 (UInt16.ofNat d.spis.length)) := by
    rw [← hb, slice_mid (by simp) (by simp)]
  have hspis : sliceFrom b 4 = .ok d.spis.flatten := by
    rw [← hb, ← List.append_assoc, sliceFrom_append (by simp)]
  rw [DeletePayload.unmarshalBody, if_neg (by omega), hprotocol, ok_bind, hsize, ok_bind, hnum,
    ok_bind, uint16_putUint16, ok_bind]
  simp only [hu16]
  rw [if_neg (by omega), if_neg (by omega), hspis, ok_bind, hread]
  rfl

/-! ## Traffic selectors -/

/-- A selector of a supported type, with addresses of its width. -/
def TrafficSelector.WF (ts : TrafficSelector) : Prop :=
  (ts.tsType = tsIPv4AddrRange ∨ ts.tsType = tsIPv6AddrRange) ∧
    ts.startAddr.length = addrLen ts.tsType ∧ ts.endAddr.length = addrLen ts.tsType

instance (ts : TrafficSelector) : Decidable ts.WF := inferInstanceAs (Decidable (_ ∧ _))

/-- The octets of a selector substructure. -/
def TrafficSelector.size (ts : TrafficSelector) : Nat := 8 + 2 * addrLen ts.tsType

theorem TrafficSelector.WF.addrLen_bounds {ts : TrafficSelector} (h : ts.WF) :
    addrLen ts.tsType ≠ 0 ∧ addrLen ts.tsType ≤ 16 := by
  obtain ⟨h4 | h6, _, _⟩ := h
  · rw [h4]; decide
  · rw [h6]; decide

theorem marshalSelector_encodes {ts : TrafficSelector} (h : ts.WF) :
    Encodes (marshalSelector ts) ts.size parseSelector ts := by
  obtain ⟨hne, hle⟩ := h.addrLen_bounds
  obtain ⟨-, hstart, hend⟩ := h
  have hlen : (UInt16.ofNat (8 + ts.startAddr.length + ts.endAddr.length)).toNat =
      8 + 2 * addrLen ts.tsType := by
    rw [UInt16.toNat_ofNat']
    omega
  refine ⟨[ts.tsType, ts.protocol] ++ (putUint16 (UInt16.ofNat (8 + ts.startAddr.length +
    ts.endAddr.length)) ++ (putUint16 ts.startPort ++ (putUint16 ts.endPort ++
      (ts.startAddr ++ ts.endAddr)))), ?_, ?_, ?_⟩
  · rw [marshalSelector, if_neg hne, if_neg (by omega)]
  · rw [TrafficSelector.size]
    simp
    omega
  intro rest
  simp only [List.append_assoc]
  generalize hb : [ts.tsType, ts.protocol] ++ (putUint16 (UInt16.ofNat (8 + ts.startAddr.length +
    ts.endAddr.length)) ++ (putUint16 ts.startPort ++ (putUint16 ts.endPort ++
      (ts.startAddr ++ (ts.endAddr ++ rest))))) = b
  have hblen : b.length = 8 + 2 * addrLen ts.tsType + rest.length := by rw [← hb]; simp; omega
  have htype : index b 0 = .ok ts.tsType := by rw [← hb]; rfl
  have hprotocol : index b 1 = .ok ts.protocol := by rw [← hb]; rfl
  have hselLen : slice b 2 4 = .ok (putUint16 (UInt16.ofNat (8 + ts.startAddr.length +
      ts.endAddr.length))) := by
    rw [← hb, slice_mid (by simp) (by simp)]
  have hstartPort : slice b 4 6 = .ok (putUint16 ts.startPort) := by
    rw [← hb, slice_append_of_ge (by simp) (by simp), slice_mid (by simp) (by simp)]
  have hendPort : slice b 6 8 = .ok (putUint16 ts.endPort) := by
    rw [← hb, slice_append_of_ge (by simp) (by simp), slice_append_of_ge (by simp) (by simp),
      slice_mid (by simp) (by simp)]
  have hstartAddr : slice b 8 (8 + addrLen ts.tsType) = .ok ts.startAddr := by
    rw [← hb, slice_append_of_ge (by simp) (by simp), slice_append_of_ge (by simp) (by simp; omega),
      slice_append_of_ge (by simp) (by simp; omega), slice_mid (by simp) (by simp; omega)]
  have hendAddr : slice b (8 + addrLen ts.tsType) (8 + 2 * addrLen ts.tsType) = .ok ts.endAddr := by
    rw [← hb, slice_append_of_ge (by simp; omega) (by omega),
      slice_append_of_ge (by simp; omega) (by simp; omega),
      slice_append_of_ge (by simp; omega) (by simp; omega),
      slice_append_of_ge (by simp; omega) (by simp; omega),
      slice_mid (by simp; omega) (by simp; omega)]
  have hrest : sliceFrom b (8 + 2 * addrLen ts.tsType) = .ok rest := by
    rw [← hb, ← List.append_assoc, ← List.append_assoc, ← List.append_assoc, ← List.append_assoc,
      ← List.append_assoc, sliceFrom_append (by simp; omega)]
  rw [parseSelector, if_neg (by omega), htype, ok_bind]
  simp only [if_neg hne]
  rw [hselLen, ok_bind, uint16_putUint16, ok_bind]
  simp only [hlen]
  rw [if_neg (by omega), if_neg (by omega), hprotocol, ok_bind, hstartPort, ok_bind,
    uint16_putUint16, ok_bind, hendPort, ok_bind, uint16_putUint16, ok_bind, hstartAddr, ok_bind,
    hendAddr, ok_bind, hrest]
  rfl

/-- From one selector to as many as an octet counts. -/
def selectorsWF (selectors : List TrafficSelector) : Prop :=
  1 ≤ selectors.length ∧ selectors.length ≤ 255 ∧ ∀ ts ∈ selectors, ts.WF

instance (selectors : List TrafficSelector) : Decidable (selectorsWF selectors) :=
  inferInstanceAs (Decidable (_ ∧ _))

/-- The octets of the body of a traffic selector payload. -/
def selectorsSize (selectors : List TrafficSelector) : Nat :=
  4 + (selectors.map TrafficSelector.size).sum

theorem marshalTSBody_roundTrips {selectors : List TrafficSelector} (h : selectorsWF selectors) :
    RoundTrips (marshalTSBody selectors) (selectorsSize selectors) parseTSBody selectors := by
  obtain ⟨hpos, hmax, hts⟩ := h
  obtain ⟨es, hes, hlen, hreads⟩ :=
    writeAll_encodes fun ts hmem (_ : Bool) => marshalSelector_encodes (hts ts hmem)
  have hread := readN_flatten hreads []
  rw [List.append_nil] at hread
  have hcount : (UInt8.ofNat selectors.length).toNat = selectors.length := by
    rw [UInt8.toNat_ofNat']
    omega
  have hempty : ¬ selectors.isEmpty = true := by
    rw [List.isEmpty_iff_length_eq_zero]
    omega
  refine ⟨[UInt8.ofNat selectors.length, 0, 0, 0] ++ es.flatten, ?_, ?_, ?_⟩
  · rw [marshalTSBody, if_neg hempty, hes]
    rfl
  · rw [selectorsSize, ← hlen]
    simp
    omega
  · rw [parseTSBody, if_neg (by simp), sliceFrom_append (by simp)]
    simp only [List.cons_append, index_cons_zero, ok_bind, hcount]
    rw [if_neg (by omega), hread]
    rfl

theorem TSiPayload.roundTrips {ts : TSiPayload} (h : selectorsWF ts.selectors) :
    RoundTrips ts.marshalBody (selectorsSize ts.selectors) TSiPayload.unmarshalBody ts := by
  obtain ⟨body, hm, hlen, hu⟩ := marshalTSBody_roundTrips h
  refine ⟨body, hm, hlen, ?_⟩
  rw [TSiPayload.unmarshalBody, hu]
  rfl

theorem TSrPayload.roundTrips {ts : TSrPayload} (h : selectorsWF ts.selectors) :
    RoundTrips ts.marshalBody (selectorsSize ts.selectors) TSrPayload.unmarshalBody ts := by
  obtain ⟨body, hm, hlen, hu⟩ := marshalTSBody_roundTrips h
  refine ⟨body, hm, hlen, ?_⟩
  rw [TSrPayload.unmarshalBody, hu]
  rfl

/-! ## Configuration -/

/-- The type leaves the reserved high bit clear. -/
def ConfigAttr.WF (attr : ConfigAttr) : Prop := attr.type < 0x8000

instance (attr : ConfigAttr) : Decidable attr.WF := inferInstanceAs (Decidable (_ < _))

/-- The octets of a configuration attribute. -/
def ConfigAttr.size (attr : ConfigAttr) : Nat := 4 + attr.value.length

theorem and_low15 {x : UInt16} (h : x < 0x8000) : x &&& 0x7fff = x := by
  apply UInt16.toNat_inj.mp
  have hx : x.toNat < 2 ^ 15 := by simpa using UInt16.lt_iff_toNat_lt.mp h
  rw [UInt16.toNat_and]
  exact (Nat.and_two_pow_sub_one_eq_mod x.toNat 15).trans (Nat.mod_eq_of_lt hx)

theorem parseConfigAttr_consumes (b : Bytes) (a : ConfigAttr) (rest : Bytes)
    (h : parseConfigAttr b = .ok (a, rest)) : rest.length < b.length := by
  unfold parseConfigAttr at h
  split at h
  · cases h
  · simp only [bind_eq_ok] at h
    obtain ⟨_, _, _, _, _, _, n, _, h⟩ := h
    split at h
    · cases h
    · simp only [bind_eq_ok, pure_eq_ok, Except.ok.injEq, Prod.mk.injEq] at h
      obtain ⟨_, _, r, hr, _, rfl⟩ := h
      obtain ⟨hle, rfl⟩ := sliceFrom_eq_ok hr
      rw [List.length_drop]
      omega

theorem reads_marshalConfigAttr {attr : ConfigAttr} (h : attr.WF) (hn : attr.size < 2 ^ 16) :
    Reads parseConfigAttr (marshalConfigAttr attr) attr := by
  intro rest
  rw [ConfigAttr.size] at hn
  have hlen : (UInt16.ofNat attr.value.length).toNat = attr.value.length := by
    rw [UInt16.toNat_ofNat']
    omega
  rw [marshalConfigAttr, and_low15 h]
  simp only [List.append_assoc]
  generalize hb : putUint16 attr.type ++ (putUint16 (UInt16.ofNat attr.value.length) ++
    (attr.value ++ rest)) = b
  have hblen : b.length = 4 + attr.value.length + rest.length := by rw [← hb]; simp; omega
  have htype : slice b 0 2 = .ok (putUint16 attr.type) := by
    rw [← hb, slice_append_of_le (by simp), slice_all (by simp)]
  have hlength : slice b 2 4 = .ok (putUint16 (UInt16.ofNat attr.value.length)) := by
    rw [← hb, slice_mid (by simp) (by simp)]
  have hvalue : slice b 4 (4 + attr.value.length) = .ok attr.value := by
    rw [← hb, slice_append_of_ge (by simp) (by simp), slice_mid (by simp) (by simp; omega)]
  have hrest : sliceFrom b (4 + attr.value.length) = .ok rest := by
    rw [← hb, ← List.append_assoc, ← List.append_assoc, sliceFrom_append (by simp; omega)]
  rw [parseConfigAttr, if_neg (by omega), htype, ok_bind, uint16_putUint16, ok_bind, hlength, ok_bind,
    uint16_putUint16, ok_bind]
  simp only [hlen, and_low15 h]
  rw [if_neg (by omega), hvalue, ok_bind, hrest]
  rfl

/-- The octets of the body of a configuration payload. -/
def ConfigPayload.size (c : ConfigPayload) : Nat := 4 + (c.attributes.map ConfigAttr.size).sum

theorem ConfigPayload.roundTrips {c : ConfigPayload} (h : ∀ a ∈ c.attributes, a.WF)
    (hn : c.size ≤ 65531) : RoundTrips c.marshalBody c.size ConfigPayload.unmarshalBody c := by
  have hreads : List.Forall₂ (Reads parseConfigAttr) (c.attributes.map marshalConfigAttr)
      c.attributes := by
    rw [List.forall₂_map_left_iff, List.forall₂_same]
    intro a ha
    have hle : a.size ≤ (c.attributes.map ConfigAttr.size).sum :=
      List.le_sum_of_mem (List.mem_map_of_mem ha)
    rw [ConfigPayload.size] at hn
    exact reads_marshalConfigAttr (h a ha) (by omega)
  have hread := readAll_flatten parseConfigAttr_consumes hreads
  refine ⟨_, rfl, ?_, ?_⟩
  · have hsize : List.length ∘ marshalConfigAttr = ConfigAttr.size := by
      funext a
      simp [marshalConfigAttr, ConfigAttr.size]
      omega
    rw [ConfigPayload.size, List.length_append, List.length_flatten, List.map_map, hsize]
    rfl
  · rw [ConfigPayload.unmarshalBody, if_neg (by simp), sliceFrom_append (by simp)]
    simp only [List.cons_append, index_cons_zero, ok_bind, hread]
    rfl

end GoIpsec.Ikemsg
