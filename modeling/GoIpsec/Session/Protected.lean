import GoIpsec.Ikemsg.Safety
import GoIpsec.Ikesa.Envelope

/-!
# Protected messages

Encoding of a chain of payloads into a message with one encrypted payload, and its
decoding.  Encoding is a pipeline of three stages: the inner chain, a message with
a body of the final length, and the completion of that body in the whole message.
Decoding finds the body by parsing the message first.

The bytes of a protected message are the header, the generic header of the
encrypted payload and the sealed body (`skWire`).
-/

namespace GoIpsec.Session

open Golang Ikemsg Ikesa

/-- The Initiator flag for the end of an SA that we are. -/
def ikeRoleBit : Role → Flags
  | .initiator => flagInitiator
  | .responder => 0

/-- Encrypt under one IKE SA. -/
def encodeSKWith (c : Crypto) (ike : IKESA) (rand : RandRead) (spii spir : UInt64)
    (exchange : ExchangeType) (flags : Flags) (msgID : UInt32) (inner : Payloads) :
    Go Bytes × IKESA :=
  match wrapErr "session: encode inner payloads: " inner.marshal with
  | .error e => (.error e, ike)
  | .ok (firstType, plaintext) =>
      let sk := ike.encryptToSK c rand plaintext
      (do
        let skData ← sk.1
        let m : Message := { initiatorSPI := spii, responderSPI := spir, exchange, flags,
                             messageID := msgID,
                             payloads := [.sk { innerFirst := firstType, data := skData }] }
        let raw ← wrapErr "session: encode SK message: " m.marshal
        ike.finalizeSK c raw skData.length, sk.2)

/-- Encrypt a message without inner payloads under one IKE SA. -/
def encodeSKEmptyWith (c : Crypto) (ike : IKESA) (rand : RandRead) (spii spir : UInt64)
    (exchange : ExchangeType) (flags : Flags) (msgID : UInt32) : Go Bytes × IKESA :=
  let sk := ike.encryptToSK c rand []
  (do
    let skData ← sk.1
    let m : Message := { initiatorSPI := spii, responderSPI := spir, exchange, flags,
                         messageID := msgID,
                         payloads := [.sk { innerFirst := payloadNone, data := skData }] }
    let raw ← m.marshal
    ike.finalizeSK c raw skData.length, sk.2)

/-! Encoding advances the IV counter, and leaves the keys. -/

theorem encodeSKWith_snd (c : Crypto) (ike : IKESA) (rand : RandRead) (spii spir : UInt64)
    (exchange : ExchangeType) (flags : Flags) (msgID : UInt32) (inner : Payloads) :
    ∃ n, (encodeSKWith c ike rand spii spir exchange flags msgID inner).2 =
      { ike with skSeq := n } := by
  unfold encodeSKWith
  split
  · exact ⟨ike.skSeq, rfl⟩
  · unfold IKESA.encryptToSK
    split
    · exact ⟨_, rfl⟩
    · exact ⟨ike.skSeq, rfl⟩

theorem encodeSKEmptyWith_snd (c : Crypto) (ike : IKESA) (rand : RandRead) (spii spir : UInt64)
    (exchange : ExchangeType) (flags : Flags) (msgID : UInt32) :
    ∃ n, (encodeSKEmptyWith c ike rand spii spir exchange flags msgID).2 =
      { ike with skSeq := n } := by
  unfold encodeSKEmptyWith IKESA.encryptToSK
  split
  · exact ⟨_, rfl⟩
  · exact ⟨ike.skSeq, rfl⟩

/-- What an encoding does with the IV counter.  Under an AEAD suite a message that was
encoded has used up a value, and one that failed may have. -/
inductive Uses (ike : IKESA) : Go Bytes × IKESA → Prop
  | kept (res : Go Bytes) (hres : ike.suite.aead = true → ∀ raw, res ≠ .ok raw) :
      Uses ike (res, ike)
  | used (res : Go Bytes) (haead : ike.suite.aead = true) :
      Uses ike (res, { ike with skSeq := ike.skSeq + 1 })

theorem uses_encodeSKEmptyWith (c : Crypto) (ike : IKESA) (rand : RandRead) (spii spir : UInt64)
    (exchange : ExchangeType) (flags : Flags) (msgID : UInt32) :
    Uses ike (encodeSKEmptyWith c ike rand spii spir exchange flags msgID) := by
  unfold encodeSKEmptyWith IKESA.encryptToSK
  split
  · exact .used _ ‹_›
  · exact .kept _ fun haead => absurd haead ‹_›

theorem uses_encodeSKWith (c : Crypto) (ike : IKESA) (rand : RandRead) (spii spir : UInt64)
    (exchange : ExchangeType) (flags : Flags) (msgID : UInt32) (inner : Payloads) :
    Uses ike (encodeSKWith c ike rand spii spir exchange flags msgID inner) := by
  unfold encodeSKWith
  split
  · exact .kept _ fun _ _ => nofun
  · unfold IKESA.encryptToSK
    split
    · exact .used _ ‹_›
    · exact .kept _ fun haead => absurd haead ‹_›

/-- The first encrypted payload of a chain. -/
def firstSK : Payloads → Option EncryptedPayload
  | [] => none
  | .sk e :: _ => some e
  | _ :: rest => firstSK rest

/-- Verify and decrypt under one IKE SA.  The flag says whether the integrity
check passed. -/
def decodeSKWith (c : Crypto) (ike : IKESA) (raw : Bytes) : Go (Message × Payloads) × Bool :=
  match wrapErr "session: decode SK message: " (parse raw) with
  | .error e => (.error e, false)
  | .ok m =>
      match firstSK m.payloads with
      | none => (fail "session: message has no SK payload", false)
      | some enc =>
          match ike.openSK c raw enc.data with
          | (.error e, icvOK) => (.error e, icvOK)
          | (.ok plaintext, _) =>
              match parsePayloads enc.innerFirst plaintext with
              | .error e => (.error e, true)
              | .ok inner => (.ok (m, inner), true)

/-- Decoding any octets ends in a message or an error. -/
theorem decodeSKWith_safe (c : Crypto) {ike : IKESA} (h : ike.WF) (raw : Bytes) :
    Safe (decodeSKWith c ike raw).1 := by
  unfold decodeSKWith
  split
  · rename_i e he
    exact (Safe.wrapErr _ (parse_safe raw)).of_error he
  split
  · exact Safe.fail _
  rename_i enc _
  split
  · rename_i e icvOK ho
    exact (h.openSK_safe raw enc.data).of_error (by rw [ho])
  rename_i plaintext _ _
  split
  · rename_i e he
    exact (parseChain_safe enc.innerFirst plaintext).of_error he
  · exact Safe.ok _

/-! ## The bytes of a protected message -/

/-- The header of a protected message, as a message without payloads. -/
def skHeader (spii spir : UInt64) (exchange : ExchangeType) (flags : Flags) (msgID : UInt32) :
    Message :=
  { initiatorSPI := spii, responderSPI := spir, exchange, flags, messageID := msgID, payloads := [] }

/-- Everything in front of the body of a message with one encrypted payload. -/
def skPrefix (m : Message) (innerFirst : PayloadType) (bodyLen : Nat) : Bytes :=
  m.header payloadSK (genericHeaderLen + bodyLen) ++ genericHeader innerFirst bodyLen

@[simp] theorem length_skPrefix (m : Message) (t : PayloadType) (n : Nat) :
    (skPrefix m t n).length = 32 := by
  simp [skPrefix]

theorem marshalChain_sk (t : PayloadType) {body : Bytes} (hn : body.length ≤ 65531) :
    marshalChain [.sk { innerFirst := t, data := body }] =
      .ok (genericHeader t body.length ++ body) := by
  have hfits : ¬ body.length > 0xFFFF - genericHeaderLen := by rw [genericHeaderLen]; omega
  simp only [marshalChain, Payload.marshalBody, EncryptedPayload.marshalBody, ok_bind]
  rw [if_neg hfits]
  simp [nextType]

theorem marshal_sk {m : Message} {t : PayloadType} {body : Bytes}
    (hm : m.payloads = [.sk { innerFirst := t, data := body }]) (hn : body.length ≤ 65531) :
    m.marshal = .ok (skPrefix m t body.length ++ body) := by
  rw [Message.marshal, Payloads.marshal, hm, marshalChain_sk t hn]
  simp [skPrefix, firstType, Payload.payloadType, genericHeaderLen]

theorem parse_skPrefix (m : Message) (t : PayloadType) {body : Bytes} (hn : body.length ≤ 65531) :
    parse (skPrefix m t body.length ++ body) =
      .ok { m with payloads := [.sk { innerFirst := t, data := body }] } := by
  have hwf : Payloads.WF [.sk { innerFirst := t, data := body }] := by
    refine ⟨fun p hp => ?_, fun p hp => by cases hp⟩
    rw [List.mem_singleton] at hp
    subst hp
    exact ⟨trivial, hn⟩
  obtain ⟨chain, hm, -, hparse⟩ := marshalChain_roundTrips hwf
  rw [marshalChain_sk t hn, Except.ok.injEq] at hm
  have hlen : genericHeaderLen + body.length = chain.length := by
    rw [← hm]
    simp [genericHeaderLen]
  have hfits : headerLen + chain.length < 2 ^ 32 := by
    rw [← hlen, headerLen, genericHeaderLen]
    omega
  rw [skPrefix, List.append_assoc, hm, hlen, parse_header hfits]
  rw [show payloadSK = firstType [.sk { innerFirst := t, data := body }] from rfl, hparse]
  rfl

/-! ## Encoding -/

theorem Payloads.marshal_eq_ok {ps : Payloads} {t : PayloadType} {body : Bytes} :
    ps.marshal = .ok (t, body) ↔ t = firstType ps ∧ marshalChain ps = .ok body := by
  simp only [Payloads.marshal, bind_eq_ok, pure_eq_ok, Except.ok.injEq, Prod.mk.injEq]
  constructor
  · rintro ⟨_, hb, rfl, rfl⟩
    exact ⟨rfl, hb⟩
  · rintro ⟨rfl, hb⟩
    exact ⟨body, hb, rfl, rfl⟩

/-- A message with an encrypted payload has an encoding only if the body fits. -/
theorem length_of_marshal_sk {m : Message} {t : PayloadType} {body raw : Bytes}
    (hm : m.payloads = [.sk { innerFirst := t, data := body }]) (h : m.marshal = .ok raw) :
    body.length ≤ 65531 := by
  by_contra hn
  have hbig : body.length > 0xFFFF - genericHeaderLen := by rw [genericHeaderLen]; omega
  simp only [Message.marshal, Payloads.marshal, hm, marshalChain, Payload.marshalBody,
    EncryptedPayload.marshalBody, ok_bind] at h
  rw [if_pos hbig] at h
  cases h

/-- A message that encodes is the prefix and the sealed body. -/
theorem encodeSKWith_eq_ok {c : Crypto} {ike ike' : IKESA} (hwf : ike.WF) {rand : RandRead}
    {spii spir : UInt64} {exchange : ExchangeType} {flags : Flags} {msgID : UInt32}
    {inner : Payloads} {raw : Bytes}
    (h : encodeSKWith c ike rand spii spir exchange flags msgID inner = (.ok raw, ike')) :
    ∃ pt iv pad : Bytes, marshalChain inner = .ok pt ∧ ike.OwnIV iv ∧
      pad.length ≤ 255 ∧ (ike.suite.aead = false → (pt.length + pad.length + 1) % 16 = 0) ∧
      ∃ n ≤ 65531,
        let pre := skPrefix (skHeader spii spir exchange flags msgID) (firstType inner) n
        let body := ike.sealBody c pre iv (pt ++ (pad ++ [UInt8.ofNat pad.length]))
        body.length = n ∧ raw = pre ++ body := by
  unfold encodeSKWith at h
  split at h
  · cases (Prod.mk.inj h).1
  · rename_i t pt hinner
    obtain ⟨rfl, hpt⟩ := Payloads.marshal_eq_ok.mp (wrapErr_eq_ok.mp hinner)
    obtain ⟨hraw, -⟩ := Prod.mk.inj h
    simp only [bind_eq_ok, wrapErr_eq_ok] at hraw
    obtain ⟨skData, hsk, raw₀, hraw₀, hfinal⟩ := hraw
    have hn := length_of_marshal_sk rfl hraw₀
    rw [marshal_sk rfl hn, Except.ok.injEq] at hraw₀
    subst hraw₀
    obtain ⟨iv, pad, hiv, hpad, hblocks, hlen, hfin⟩ :=
      IKESA.finalizeSK_encryptToSK hwf (Prod.ext hsk rfl) (Nat.le_of_eq (length_skPrefix _ _ _).symm)
    rw [hfin, Except.ok.injEq] at hfinal
    exact ⟨pt, iv, pad, hpt, hiv, hpad, hblocks, skData.length, hn, hlen, hfinal.symm⟩

/-- An empty message is encoded as one with the empty chain. -/
theorem encodeSKWith_of_empty {c : Crypto} {ike ike' : IKESA} {rand : RandRead}
    {spii spir : UInt64} {exchange : ExchangeType} {flags : Flags} {msgID : UInt32} {raw : Bytes}
    (h : encodeSKEmptyWith c ike rand spii spir exchange flags msgID = (.ok raw, ike')) :
    encodeSKWith c ike rand spii spir exchange flags msgID [] = (.ok raw, ike') := by
  obtain ⟨hraw, hike⟩ := Prod.mk.inj h
  simp only [bind_eq_ok] at hraw
  obtain ⟨skData, hsk, raw₀, hraw₀, hfinal⟩ := hraw
  refine Prod.ext ?_ hike
  change (_ >>= _ : Go Bytes) = _
  rw [bind_eq_ok]
  exact ⟨skData, hsk, bind_eq_ok.mpr ⟨raw₀, wrapErr_eq_ok.mpr hraw₀, hfinal⟩⟩

/-- What one end encodes, the other decodes: the header, and the inner chain if it
is well-formed. -/
theorem decodeSKWith_of_mirror {c : Crypto} {a b a' : IKESA} (h : Mirror a b)
    {rand : RandRead} {spii spir : UInt64} {exchange : ExchangeType} {flags : Flags}
    {msgID : UInt32} {inner : Payloads} {raw : Bytes} (hinner : inner.WF)
    (henc : encodeSKWith c a rand spii spir exchange flags msgID inner = (.ok raw, a')) :
    ∃ ps, decodeSKWith c b raw =
      (.ok ({ skHeader spii spir exchange flags msgID with payloads := ps }, inner), true) := by
  obtain ⟨pt, iv, pad, hpt, hiv, hpad, hblocks, n, hn, hlen, rfl⟩ := encodeSKWith_eq_ok h.left henc
  generalize hhdr : skHeader spii spir exchange flags msgID = hdr at hlen
  have hopen : b.openSK c (skPrefix hdr (firstType inner) n ++ _) _ = (.ok pt, true) :=
    h.openSK_sealBody (Nat.le_of_eq (length_skPrefix _ _ _).symm) hiv.1 hpad hblocks
  generalize a.sealBody c (skPrefix hdr (firstType inner) n) iv
    (pt ++ (pad ++ [UInt8.ofNat pad.length])) = body at hopen hlen
  subst hlen
  obtain ⟨pt', hm, -, hparse⟩ := marshalChain_roundTrips hinner
  rw [hpt, Except.ok.injEq] at hm
  subst hm
  refine ⟨[.sk { innerFirst := firstType inner, data := body }], ?_⟩
  simp only [decodeSKWith, parse_skPrefix hdr (firstType inner) hn, wrapErr_ok, firstSK, hopen,
    parsePayloads, hparse]

/-! ## Round trip -/

/-- Two SAs derived with the same suite, SPIs, nonces and secret and opposite
roles, either from scratch or to replace an SA. -/
def DerivedTogether (c : Crypto) (a b : IKESA) : Prop :=
  ∃ suite role spii spir nonceI nonceR dhShared,
    (derive c suite role spii spir nonceI nonceR dhShared = .ok a ∧
      derive c suite role.other spii spir nonceI nonceR dhShared = .ok b) ∨
    ∃ oldSKd, deriveRekeyIKE c suite oldSKd role spii spir nonceI nonceR dhShared = .ok a ∧
      deriveRekeyIKE c suite oldSKd role.other spii spir nonceI nonceR dhShared = .ok b

theorem DerivedTogether.mirror {c : Crypto} {a b : IKESA} (h : DerivedTogether c a b) :
    Mirror a b := by
  obtain ⟨suite, role, spii, spir, nonceI, nonceR, dhShared, ⟨ha, hb⟩ | ⟨oldSKd, ha, hb⟩⟩ := h
  · exact derive_mirror ha hb
  · obtain ⟨-, -, -, -, b', hb', hm⟩ := deriveRekeyIKE_ok ha
    rw [hb, Except.ok.injEq] at hb'
    exact hb' ▸ hm

/-- The envelope round trip between two ends derived together, at any values of
their IV counters.  What one encodes the other decodes, header and inner chain.
And a peer that holds the keys may pad as it likes: exactly the plaintext comes
out. -/
theorem decodeSKWith_encodeSKWith (c : Crypto) (a b : IKESA) (h : DerivedTogether c a b)
    (na nb : UInt64) :
    (∀ rand spii spir exchange flags msgID (inner : Payloads) raw a', inner.WF →
      encodeSKWith c { a with skSeq := na } rand spii spir exchange flags msgID inner = (.ok raw, a') →
      ∃ m, decodeSKWith c { b with skSeq := nb } raw = (.ok (m, inner), true) ∧
        m.initiatorSPI = spii ∧ m.responderSPI = spir ∧ m.exchange = exchange ∧ m.flags = flags ∧
        m.messageID = msgID) ∧
    ∀ pre iv pt pad : Bytes, 32 ≤ pre.length → iv.length = a.suite.ivLen → pad.length ≤ 255 →
      (a.suite.aead = false → (pt.length + pad.length + 1) % 16 = 0) →
      let body := a.sealBody c pre iv (pt ++ (pad ++ [UInt8.ofNat pad.length]))
      IKESA.openSK c { b with skSeq := nb } (pre ++ body) body = (.ok pt, true) := by
  have hm := h.mirror
  refine ⟨?_, ?_⟩
  · intro rand spii spir exchange flags msgID inner raw a' hinner henc
    obtain ⟨ps, hdec⟩ := decodeSKWith_of_mirror (hm.withSeq na nb) hinner henc
    exact ⟨_, hdec, rfl, rfl, rfl, rfl, rfl⟩
  · intro pre iv pt pad hpre hiv hpad hblocks
    exact (hm.withSeq a.skSeq nb).openSK_sealBody hpre hiv hpad hblocks

/-- An end of an SA that both ends derive from the same values. -/
def sampleSA (role : Role) : IKESA :=
  valueD (derive Crypto.sample .aesGCM256 role 1 2 (List.replicate 16 1) (List.replicate 16 2) [1])
    { role, suite := .other 0, initiatorSPI := 0, responderSPI := 0, skd := [], skai := [],
      skar := [], skei := [], sker := [], skpi := [], skpr := [] }

/-- A message of the responder of `sampleSA`. -/
def fromResponder (exchange : ExchangeType) (flags : Flags) (msgID : UInt32) (inner : Payloads) :
    Bytes :=
  valueD (encodeSKWith Crypto.sample { sampleSA .responder with skSeq := 0 } none 1 2 exchange flags
    msgID inner).1 []

/-- A delete and a notify. -/
def sampleInner : Payloads :=
  [.delete { protocol := protocolESP, spis := [putUint32 7] },
   .notify { protocol := protocolESP, type := notifyRekeySA, spi := putUint32 7 }]

/-- An informational message, as `sampleSA` encodes it. -/
def sampleEncoded : Go Bytes × IKESA :=
  encodeSKWith Crypto.sample { sampleSA .initiator with skSeq := 5 } none 1 2 exchangeInformational 0
    3 sampleInner

theorem derivedTogether_sampleSA :
    DerivedTogether Crypto.sample (sampleSA .initiator) (sampleSA .responder) :=
  ⟨.aesGCM256, .initiator, 1, 2, List.replicate 16 1, List.replicate 16 2, [1],
    .inl ⟨by decide +kernel, by decide +kernel⟩⟩

/-- The message comes out at the other end, and so does a plaintext with two octets of
padding. -/
theorem decodeSKWith_encodeSKWith_sample :
    DerivedTogether Crypto.sample (sampleSA .initiator) (sampleSA .responder) ∧
      (∃ m, decodeSKWith Crypto.sample { sampleSA .responder with skSeq := 0 }
          (valueD sampleEncoded.1 []) = (.ok (m, sampleInner), true) ∧ m.messageID = 3) ∧
      IKESA.openSK Crypto.sample { sampleSA .responder with skSeq := 0 }
        (List.replicate 32 0 ++ (sampleSA .initiator).sealBody Crypto.sample (List.replicate 32 0)
          (List.replicate 8 4) [1, 2, 3, 9, 9, 2])
        ((sampleSA .initiator).sealBody Crypto.sample (List.replicate 32 0) (List.replicate 8 4)
          [1, 2, 3, 9, 9, 2]) = (.ok [1, 2, 3], true) := by
  have h := derivedTogether_sampleSA
  have henc : sampleEncoded = (.ok (valueD sampleEncoded.1 []), sampleEncoded.2) := by
    decide +kernel
  obtain ⟨hchain, hpadded⟩ := decodeSKWith_encodeSKWith Crypto.sample _ _ h 5 0
  obtain ⟨m, hdec, -, -, -, -, hid⟩ :=
    hchain none 1 2 exchangeInformational 0 3 sampleInner _ _ (by decide) henc
  exact ⟨h, ⟨m, hdec, hid⟩, hpadded (List.replicate 32 0) (List.replicate 8 4) [1, 2, 3] [9, 9]
    (by decide) (by decide +kernel) (by decide) fun hsuite => absurd hsuite (by decide +kernel)⟩

end GoIpsec.Session
