import GoIpsec.Session.Protected

/-!
# Authenticity of protected messages

A datagram that decodes under an IKE SA is one the peer sealed under it, byte for
byte, if the integrity check of the SA only passes on what the peer sealed.

The check and the parser look at different bytes.  The parser takes the body of
the first encrypted payload it meets, wherever that stands; an AEAD check takes
that body, and as additional data as many octets of the datagram as are left over
when the body is thought at its end.  The two agree because the additional data
determines the walk of the parser: it contains the header and the outer chain of
the peer's message up to the generic header of its encrypted payload
(`firstSK_of_outerShape`).

Unforgeability is assumed of the datagram at hand (`Unforged`), not of the
primitives.  No function has it for all inputs.
-/

namespace GoIpsec.Session

open Golang Ikemsg Ikesa

/-! ## The outer chain on the wire -/

/-- `chain` is a sequence of whole payloads, none encrypted, that starts with one
of type `first` and announces `next` behind it.  Nothing else is asked of them:
the types may be unknown, the Critical bit set, the bodies malformed. -/
inductive OuterChain : (first : PayloadType) → (chain : Bytes) → (next : PayloadType) → Prop where
  | nil (t : PayloadType) : OuterChain t [] t
  | cons {t following next : PayloadType} {flags : UInt8} {body rest : Bytes}
      (ht : t ≠ payloadSK) (hn : body.length ≤ 65531) (h : OuterChain following rest next) :
      OuterChain t ([following, flags] ++ (putUint16 (UInt16.ofNat (genericHeaderLen + body.length)) ++
        (body ++ rest))) next

/-- The octets in front of the body of a message whose only encrypted payload is
its last payload, for a body of `n` octets. -/
def OuterShape (pre : Bytes) (n : Nat) : Prop :=
  ∃ (hdr chain : Bytes) (first innerFirst : PayloadType) (flags : UInt8),
    hdr.length = 28 ∧ index hdr 16 = .ok first ∧ OuterChain first chain payloadSK ∧ n ≤ 65531 ∧
    pre = hdr ++ (chain ++ ([innerFirst, flags] ++
      putUint16 (UInt16.ofNat (genericHeaderLen + n))))

/-! ## The walk of the parser -/

/-- A payload that is read back has the type it was read for. -/
theorem payloadType_of_newPayload {t following : PayloadType} {u : Bytes → Go Payload}
    {body : Bytes} {p : Payload} (hu : newPayload t following = some u) (hp : u body = .ok p) :
    p.payloadType = t := by
  have hmap {α : Type} {f : α → Payload} {x : Go α} (h : f <$> x = .ok p) : ∃ a, p = f a := by
    cases x with
    | error e => cases h
    | ok a => exact ⟨a, (Except.ok.inj h).symm⟩
  have hstep {k : PayloadType} {f : Bytes → Go Payload} {rest : Option (Bytes → Go Payload)}
      (h : (if t = k then some f else rest) = some u) : t = k ∧ f = u ∨ rest = some u := by
    split at h
    · exact .inl ⟨‹_›, Option.some.inj h⟩
    · exact .inr h
  unfold newPayload at hu
  iterate 16
    obtain ⟨rfl, rfl⟩ | hu := hstep hu
    focus
      obtain ⟨a, rfl⟩ := hmap hp
      rfl
  cases hu

theorem parsePayload_segment {t following t' : PayloadType} {flags : UInt8} {body rest rest' : Bytes}
    {ps : List Payload} (hn : body.length ≤ 65531)
    (h : parsePayload t ([following, flags] ++ (putUint16 (UInt16.ofNat (genericHeaderLen +
      body.length)) ++ (body ++ rest))) = .ok (ps, t', rest')) :
    t' = following ∧ rest' = rest ∧
      (ps = [] ∧ newPayload t following = none ∨
        ∃ u p, newPayload t following = some u ∧ u body = .ok p ∧ ps = [p]) := by
  rw [parsePayload_front t following flags rest hn] at h
  cases hnew : newPayload t following with
  | none =>
      rw [hnew] at h
      dsimp only at h
      split at h
      · cases h
      · cases h
        exact ⟨rfl, rfl, .inl ⟨rfl, rfl⟩⟩
  | some u =>
      rw [hnew] at h
      simp only [bind_eq_ok, wrapErr_eq_ok, pure_eq_ok, Except.ok.injEq, Prod.mk.injEq] at h
      obtain ⟨p, hp, rfl, rfl, rfl⟩ := h
      exact ⟨rfl, rfl, .inr ⟨u, p, rfl, hp, rfl⟩⟩

theorem firstSK_append {ps qs : Payloads} (h : ∀ p ∈ ps, p.payloadType ≠ payloadSK) :
    firstSK (ps ++ qs) = firstSK qs := by
  induction ps with
  | nil => rfl
  | cons p ps ih =>
      have hp := h p List.mem_cons_self
      have ih' := ih fun q hq => h q (List.mem_cons_of_mem _ hq)
      cases p with
      | sk e => exact absurd rfl hp
      | _ => exact ih'

/-- Walking over the outer chain meets no encrypted payload. -/
theorem OuterChain.firstSK {first next : PayloadType} {chain : Bytes}
    (h : OuterChain first chain next) {rest : Bytes} {ps : Payloads}
    (hp : parseChain first (chain ++ rest) = .ok ps) :
    ∃ qs, parseChain next rest = .ok qs ∧ Session.firstSK ps = Session.firstSK qs := by
  induction h generalizing ps with
  | nil t => exact ⟨ps, hp, rfl⟩
  | @cons t following next flags body chain ht hn _ ih =>
      simp only [List.append_assoc] at hp
      rw [parseChain, many_step consumes_parsePayload (by simp)] at hp
      simp only [bind_eq_ok, Except.ok.injEq] at hp
      obtain ⟨⟨as, t', rest'⟩, hitem, more, hmore, rfl⟩ := hp
      obtain ⟨rfl, rfl, has⟩ := parsePayload_segment hn hitem
      obtain ⟨qs, hqs, hsame⟩ := ih hmore
      refine ⟨qs, hqs, ?_⟩
      rw [firstSK_append, hsame]
      rcases has with ⟨rfl, -⟩ | ⟨u, p, hu, hb, rfl⟩
      · intro p hp
        cases hp
      · intro q hq
        rw [List.mem_singleton] at hq
        subst hq
        rwa [payloadType_of_newPayload hu hb]

/-- In a datagram that starts like a message of the peer, the first encrypted
payload the parser meets is the rest of the datagram. -/
theorem firstSK_of_outerShape {pre tail : Bytes} {m : Message} (h : OuterShape pre tail.length)
    (hp : parse (pre ++ tail) = .ok m) :
    ∃ enc, firstSK m.payloads = some enc ∧ enc.data = tail := by
  obtain ⟨hdr, chain, first, innerFirst, flags, hhdr, hfirst, hchain, hn, rfl⟩ := h
  unfold parse at hp
  split at hp
  · cases hp
  simp only [bind_eq_ok] at hp
  obtain ⟨_, _, _, _, hp⟩ := hp
  split at hp
  · cases hp
  split at hp
  · cases hp
  simp only [bind_eq_ok, pure_eq_ok, Except.ok.injEq] at hp
  obtain ⟨_, _, _, _, _, _, _, _, _, _, _, _, _, _, _, _, t, ht, b, hb, ps, hps, rfl⟩ := hp
  simp only [List.append_assoc] at ht hb
  rw [index_append_of_lt (by omega), hfirst, Except.ok.injEq] at ht
  rw [sliceFrom_append (by rw [hhdr]; rfl), Except.ok.injEq] at hb
  subst ht hb
  obtain ⟨qs, hqs, hsame⟩ := hchain.firstSK hps
  simp only [hsame]
  rw [parseChain, many_step consumes_parsePayload (by simp)] at hqs
  simp only [bind_eq_ok, Except.ok.injEq] at hqs
  obtain ⟨⟨as, t', rest'⟩, hitem, more, hmore, rfl⟩ := hqs
  have hitem' : parsePayload payloadSK ([innerFirst, flags] ++
      (putUint16 (UInt16.ofNat (genericHeaderLen + tail.length)) ++ (tail ++ []))) =
        .ok (as, t', rest') := by
    simpa using hitem
  obtain ⟨rfl, rfl, has⟩ := parsePayload_segment hn hitem'
  rcases has with ⟨-, hnone⟩ | ⟨u, p, hu, hbody, rfl⟩
  · cases hnone
  · obtain rfl := Option.some.inj hu
    cases hbody
    exact ⟨_, rfl, rfl⟩

/-! ## Sealed datagrams -/

/-- What a peer seals at one time: the octets in front of the body, the IV and the
padded plaintext. -/
structure Sealing where
  pre : Bytes
  iv : Bytes
  padded : Bytes

/-- The datagram of a sealing. -/
def Sealing.datagram (c : Crypto) (peer : IKESA) (x : Sealing) : Bytes :=
  x.pre ++ peer.sealBody c x.pre x.iv x.padded

/-- The octets the CBC suite authenticates. -/
def Sealing.macInput (c : Crypto) (peer : IKESA) (x : Sealing) : Bytes :=
  x.pre ++ (x.iv ++ c.cbcEncrypt peer.outboundEncrKey x.iv x.padded)

/-- Each message the peer seals has exactly one encrypted payload, the last of its
outer payloads. -/
def OneSK (c : Crypto) (peer : IKESA) (x : Sealing) : Prop :=
  OuterShape x.pre (peer.sealBody c x.pre x.iv x.padded).length

/-- The integrity check of `sa` on the datagram `raw` passes only on what the peer
has sealed.  The AEAD check is the one of the body the parser finds in `raw`. -/
structure Unforged (c : Crypto) (sa peer : IKESA) (sent : Set Sealing) (raw : Bytes) : Prop where
  mac : sa.suite.aead = false → sa.verifyChecksum c raw = true →
    ∃ x ∈ sent, x.macInput c peer = raw.take (raw.length - 16)
  aead : ∀ (m : Message) (enc : EncryptedPayload), parse raw = .ok m →
    firstSK m.payloads = some enc →
    ∀ (st pst : AEADState) (padded : Bytes), sa.aead = some st → peer.aead = some pst →
    c.aeadOpen st.inAEAD.kind st.inAEAD.key (st.inSalt ++ enc.data.take 8) (enc.data.drop 8)
      (raw.take (raw.length - enc.data.length)) = some padded →
    ∃ x ∈ sent, pst.outSalt ++ x.iv = st.inSalt ++ enc.data.take 8 ∧
      c.aeadSeal pst.outAEAD.kind pst.outAEAD.key (pst.outSalt ++ x.iv) x.padded x.pre =
        enc.data.drop 8 ∧
      x.pre = raw.take (raw.length - enc.data.length)

section Authentic

variable {c : Crypto} {sa peer : IKESA} {sent : Set Sealing} {raw : Bytes}

theorem authentic_cbc (hm : Mirror peer sa) (ha : sa.suite.aead = false)
    (hideal : Unforged c sa peer sent raw) (hv : sa.verifyChecksum c raw = true) :
    ∃ x ∈ sent, raw = x.datagram c peer := by
  obtain ⟨x, hx, hin⟩ := hideal.mac ha hv
  refine ⟨x, hx, ?_⟩
  have hnone : peer.aead = none := hm.left.aead_none (hm.suite ▸ ha)
  unfold IKESA.verifyChecksum at hv
  split at hv
  · cases hv
  simp only [integICVLen, beq_iff_eq, ← hin, ← hm.outboundIntegKey] at hv
  conv_lhs => rw [← List.take_append_drop (raw.length - 16) raw, hv, ← hin]
  simp only [Sealing.datagram, Sealing.macInput, IKESA.sealBody, hnone, List.append_assoc]

/-- The AEAD check as a call of the primitive. -/
theorem openAEAD_eq_ok {st : AEADState} {skData padded : Bytes} (hst : sa.aead = some st)
    (h : sa.openAEAD c raw skData = .ok (some padded)) :
    c.aeadOpen st.inAEAD.kind st.inAEAD.key (st.inSalt ++ skData.take 8) (skData.drop 8)
      (raw.take (raw.length - skData.length)) = some padded := by
  simp only [IKESA.openAEAD, hst, aeadIVLen, bind_eq_ok] at h
  obtain ⟨iv, hiv, ct, hct, aad, haad, h⟩ := h
  have slice_zero {b r : Bytes} {n : Nat} (hs : slice b 0 n = .ok r) : r = b.take n := by
    unfold slice at hs
    split at hs
    · exact (Except.ok.inj hs).symm
    · cases hs
  rw [slice_zero hiv, slice_zero haad, (sliceFrom_eq_ok hct).2] at h
  unfold Crypto.openWith at h
  split at h
  · exact Except.ok.inj h
  · cases h

theorem authentic_aead (hm : Mirror peer sa) (hsent : ∀ x ∈ sent, OneSK c peer x)
    (ha : sa.suite.aead = true) (hideal : Unforged c sa peer sent raw) {m : Message}
    {enc : EncryptedPayload} {padded : Bytes} (hparse : parse raw = .ok m)
    (henc : firstSK m.payloads = some enc) (hopen : sa.openAEAD c raw enc.data = .ok (some padded))
    (hlong : 8 ≤ enc.data.length) (hfits : enc.data.length ≤ raw.length) :
    ∃ x ∈ sent, raw = x.datagram c peer := by
  obtain ⟨kind, hst, -⟩ := hm.right.aead_some ha
  obtain ⟨kind', hpst, -⟩ := hm.left.aead_some (hm.suite ▸ ha)
  obtain ⟨x, hx, hnonce, hct, hpre⟩ :=
    hideal.aead m enc hparse henc _ _ padded hst hpst (openAEAD_eq_ok hst hopen)
  refine ⟨x, hx, ?_⟩
  -- the salt is shared, so the IV is that of the sealing, and with it the body
  have hiv : x.iv = enc.data.take 8 := by
    simp only [hm.outboundEncrKey] at hnonce
    exact List.append_cancel_left hnonce
  have hbody : peer.sealBody c x.pre x.iv x.padded = enc.data := by
    simp only [IKESA.sealBody, hpst, hct]
    rw [hiv, List.take_append_drop]
  have hraw : raw = x.pre ++ raw.drop (raw.length - enc.data.length) := by
    rw [hpre, List.take_append_drop]
  have htail : (raw.drop (raw.length - enc.data.length)).length = enc.data.length := by
    rw [List.length_drop]
    omega
  have hshape : OuterShape x.pre (raw.drop (raw.length - enc.data.length)).length := by
    rw [htail, ← hbody]
    exact hsent x hx
  obtain ⟨enc', henc', hdata⟩ := firstSK_of_outerShape hshape (hraw ▸ hparse)
  rw [henc, Option.some.injEq] at henc'
  subst henc'
  rw [Sealing.datagram, hbody, hdata]
  exact hraw

/-- A datagram that decodes is one the peer sealed, byte for byte. -/
theorem authentic_of_decodeSKWith (hm : Mirror peer sa) (hsent : ∀ x ∈ sent, OneSK c peer x)
    (hideal : Unforged c sa peer sent raw) {r : Message × Payloads} {icvOK : Bool}
    (h : decodeSKWith c sa raw = (.ok r, icvOK)) : ∃ x ∈ sent, raw = x.datagram c peer := by
  unfold decodeSKWith at h
  split at h
  · cases h
  rename_i m hparse
  rw [wrapErr_eq_ok] at hparse
  split at h
  · cases h
  rename_i enc henc
  split at h
  · cases h
  rename_i pt _ hopen
  unfold IKESA.openSK at hopen
  split at hopen
  · rename_i ha
    dsimp only at hopen
    by_cases hshort : raw.length - enc.data.length < ikeHdrLen + genericHdrLen ∨
        enc.data.length < aeadIVLen + 1 + aeadTagLen
    · rw [if_pos hshort] at hopen
      cases hopen
    rw [if_neg hshort] at hopen
    simp only [ikeHdrLen, genericHdrLen, aeadIVLen, aeadTagLen] at hshort
    cases hpadded : sa.openAEAD c raw enc.data with
    | error e =>
        rw [hpadded] at hopen
        cases hopen
    | ok o =>
        rw [hpadded] at hopen
        cases o with
        | none => cases hopen
        | some padded =>
            exact authentic_aead hm hsent ha hideal hparse henc hpadded (by omega) (by omega)
  · rename_i ha
    split at hopen
    · rename_i hv
      exact authentic_cbc hm (by simpa using ha) hideal hv
    · cases hopen

end Authentic

end GoIpsec.Session
