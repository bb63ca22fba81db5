import GoIpsec.Ikemsg.Bodies

/-!
# Round trip of a message

On the well-formed domain `Message.WF` the encoder succeeds and the decoder gives
the message back, payloads in order.

The chain carries the type of each payload in the header before it, so the
induction is over the chain with the type threaded through: reading a chain from
the type of its first payload consumes one generic header and one body, and goes
on with the type that header named.  An encrypted payload keeps the octet for
itself, which is why it may only stand last.
-/

namespace GoIpsec.Ikemsg

open Golang

/-! ## The well-formed domain -/

/-- The values of a payload its encoding can carry. -/
def Payload.WF : Payload → Prop
  | .sa p => ∀ q ∈ p.proposals, q.WF
  | .nonce p => minNonceLen ≤ p.data.length ∧ p.data.length ≤ maxNonceLen
  | .notify p => p.spi.length ≤ 255
  | .delete p => p.WF
  | .tsi p => selectorsWF p.selectors
  | .tsr p => selectorsWF p.selectors
  | .cp p => ∀ a ∈ p.attributes, a.WF
  | _ => True

instance : (p : Payload) → Decidable p.WF
  | .sa p => inferInstanceAs (Decidable (∀ q ∈ p.proposals, q.WF))
  | .nonce _ => inferInstanceAs (Decidable (_ ∧ _))
  | .notify _ => inferInstanceAs (Decidable (_ ≤ _))
  | .delete p => inferInstanceAs (Decidable p.WF)
  | .tsi p => inferInstanceAs (Decidable (selectorsWF p.selectors))
  | .tsr p => inferInstanceAs (Decidable (selectorsWF p.selectors))
  | .cp p => inferInstanceAs (Decidable (∀ a ∈ p.attributes, a.WF))
  | .ke _ | .idi _ | .idr _ | .cert _ | .certReq _ | .auth _ | .vendorID _ | .sk _ | .eap _ =>
      inferInstanceAs (Decidable True)

/-- The octets of the body of a payload. -/
def Payload.bodySize : Payload → Nat
  | .sa p => (p.proposals.map Proposal.size).sum
  | .ke p => 4 + p.data.length
  | .idi p => 4 + p.data.length
  | .idr p => 4 + p.data.length
  | .cert p => 1 + p.data.length
  | .certReq p => 1 + p.data.length
  | .auth p => 4 + p.data.length
  | .nonce p => p.data.length
  | .notify p => 4 + p.spi.length + p.data.length
  | .delete p => 4 + p.spis.flatten.length
  | .vendorID p => p.data.length
  | .tsi p => selectorsSize p.selectors
  | .tsr p => selectorsSize p.selectors
  | .sk p => p.data.length
  | .cp p => p.size
  | .eap p => p.data.length

def Payload.isSK : Payload → Bool
  | .sk _ => true
  | _ => false

/-- The octets of a chain. -/
def Payloads.size (ps : Payloads) : Nat := (ps.map fun p => genericHeaderLen + p.bodySize).sum

/-- A chain of well-formed payloads whose bodies fit the length field.  Only the
last may be encrypted. -/
def Payloads.WF (ps : Payloads) : Prop :=
  (∀ p ∈ ps, p.WF ∧ p.bodySize ≤ 65531) ∧ ∀ p ∈ ps.dropLast, p.isSK = false

instance (ps : Payloads) : Decidable ps.WF := inferInstanceAs (Decidable (_ ∧ _))

/-- A well-formed chain whose length the header can carry.  The header itself is
unconstrained. -/
def Message.WF (m : Message) : Prop := m.payloads.WF ∧ headerLen + m.payloads.size < 2 ^ 32

instance (m : Message) : Decidable m.WF := inferInstanceAs (Decidable (_ ∧ _))

/-! ## One payload -/

theorem RoundTrips.map {α β : Type} {marshal : Go Bytes} {n : Nat} {unmarshal : Bytes → Go α} {a : α}
    (f : α → β) (h : RoundTrips marshal n unmarshal a) :
    RoundTrips marshal n (fun b => f <$> unmarshal b) (f a) := by
  obtain ⟨body, hm, hlen, hu⟩ := h
  refine ⟨body, hm, hlen, ?_⟩
  simp only [hu]
  rfl

/-- The body of a payload is read back under its own type.  The following type
matters to the encrypted payload only. -/
theorem Payload.roundTrips {p : Payload} (h : p.WF) (hn : p.bodySize ≤ 65531)
    {following : PayloadType} (hsk : ∀ e, p = .sk e → following = e.innerFirst) :
    ∃ unmarshalBody, newPayload p.payloadType following = some unmarshalBody ∧
      RoundTrips p.marshalBody p.bodySize unmarshalBody p := by
  cases p with
  | sa p => exact ⟨_, rfl, (SAPayload.roundTrips h).map Payload.sa⟩
  | ke p => exact ⟨_, rfl, p.roundTrips.map Payload.ke⟩
  | idi p => exact ⟨_, rfl, p.roundTrips.map Payload.idi⟩
  | idr p => exact ⟨_, rfl, p.roundTrips.map Payload.idr⟩
  | cert p => exact ⟨_, rfl, p.roundTrips.map Payload.cert⟩
  | certReq p => exact ⟨_, rfl, p.roundTrips.map Payload.certReq⟩
  | auth p => exact ⟨_, rfl, p.roundTrips.map Payload.auth⟩
  | nonce p => exact ⟨_, rfl, (NoncePayload.roundTrips h).map Payload.nonce⟩
  | notify p => exact ⟨_, rfl, (NotifyPayload.roundTrips h).map Payload.notify⟩
  | delete p => exact ⟨_, rfl, (DeletePayload.roundTrips h hn).map Payload.delete⟩
  | vendorID p => exact ⟨_, rfl, p.data, rfl, rfl, rfl⟩
  | tsi p => exact ⟨_, rfl, (TSiPayload.roundTrips h).map Payload.tsi⟩
  | tsr p => exact ⟨_, rfl, (TSrPayload.roundTrips h).map Payload.tsr⟩
  | sk p =>
      cases hsk p rfl
      exact ⟨_, rfl, p.data, rfl, rfl, rfl⟩
  | cp p => exact ⟨_, rfl, (ConfigPayload.roundTrips h hn).map Payload.cp⟩
  | eap p => exact ⟨_, rfl, p.data, rfl, rfl, rfl⟩

/-! ## Chains -/

@[simp] theorem length_genericHeader (next : PayloadType) (n : Nat) :
    (genericHeader next n).length = 4 := by
  simp [genericHeader]

/-- A payload takes at least its generic header. -/
theorem consumes_parsePayload : Consumes parsePayload := by
  intro next b as next' rest h
  unfold parsePayload at h
  split at h
  · cases h
  · simp only [bind_eq_ok] at h
    obtain ⟨_, _, _, _, _, _, plen, _, h⟩ := h
    split at h
    · cases h
    · rename_i hmin
      rw [genericHeaderLen] at hmin
      split at h
      · cases h
      · split at h
        · split at h
          · cases h
          · simp only [bind_eq_ok, pure_eq_ok, Except.ok.injEq, Prod.mk.injEq] at h
            obtain ⟨r, hr, -, -, rfl⟩ := h
            obtain ⟨hle, rfl⟩ := sliceFrom_eq_ok hr
            rw [List.length_drop]
            omega
        · simp only [bind_eq_ok, pure_eq_ok, Except.ok.injEq, Prod.mk.injEq] at h
          obtain ⟨_, _, _, _, r, hr, -, -, rfl⟩ := h
          obtain ⟨hle, rfl⟩ := sliceFrom_eq_ok hr
          rw [List.length_drop]
          omega

/-- What the decoder makes of a payload whose length field is that of its body. -/
theorem parsePayload_front (t following : PayloadType) (flags : UInt8) {body : Bytes} (rest : Bytes)
    (hn : body.length ≤ 65531) :
    parsePayload t ([following, flags] ++ (putUint16 (UInt16.ofNat (genericHeaderLen + body.length)) ++
      (body ++ rest))) =
        match newPayload t following with
        | none =>
            if flags &&& criticalBit ≠ 0 then fail s!"ikemsg: unknown critical payload type {t}"
            else .ok ([], following, rest)
        | some unmarshalBody => do
            let p ← wrapErr s!"ikemsg: payload type {t}: " (unmarshalBody body)
            return ([p], following, rest) := by
  have hplen : (UInt16.ofNat (genericHeaderLen + body.length)).toNat = 4 + body.length := by
    rw [UInt16.toNat_ofNat', genericHeaderLen]
    omega
  generalize hb : [following, flags] ++ (putUint16 (UInt16.ofNat (genericHeaderLen + body.length)) ++
    (body ++ rest)) = b
  have hblen : b.length = 4 + body.length + rest.length := by rw [← hb]; simp; omega
  have hnext : index b 0 = .ok following := by rw [← hb]; rfl
  have hcritical : index b 1 = .ok flags := by rw [← hb]; rfl
  have hlength : slice b 2 4 = .ok (putUint16 (UInt16.ofNat (genericHeaderLen + body.length))) := by
    rw [← hb, slice_mid (by simp) (by simp)]
  have hdata : slice b 4 (4 + body.length) = .ok body := by
    rw [← hb, slice_append_of_ge (by simp) (by simp), slice_mid (by simp) (by simp; omega)]
  have hrest : sliceFrom b (4 + body.length) = .ok rest := by
    rw [← hb, ← List.append_assoc, ← List.append_assoc, sliceFrom_append (by simp; omega)]
  rw [parsePayload, genericHeaderLen, if_neg (by omega), hnext, ok_bind, hcritical, ok_bind, hlength,
    ok_bind, uint16_putUint16, ok_bind]
  simp only [hplen]
  rw [if_neg (by omega), if_neg (by omega)]
  cases newPayload t following with
  | none => simp only [hrest, ok_bind, pure_eq_ok]
  | some unmarshalBody => simp only [hdata, hrest, ok_bind, pure_eq_ok]

/-- A generic header and a body that is read back make one payload. -/
theorem parsePayload_append {t next : PayloadType} {unmarshalBody : Bytes → Go Payload}
    {body rest : Bytes} {p : Payload} (ht : newPayload t next = some unmarshalBody)
    (hbody : unmarshalBody body = .ok p) (hn : body.length ≤ 65531) :
    parsePayload t ((genericHeader next body.length ++ body) ++ rest) = .ok ([p], next, rest) := by
  rw [genericHeader]
  simp only [List.append_assoc]
  rw [parsePayload_front t next 0 rest hn, ht]
  simp only [hbody, wrapErr_ok, ok_bind, pure_eq_ok]

theorem Payloads.WF.tail {p : Payload} {ps : Payloads} (h : Payloads.WF (p :: ps)) :
    Payloads.WF ps := by
  refine ⟨fun q hq => h.1 q (List.mem_cons_of_mem _ hq), ?_⟩
  cases ps with
  | nil => intro q hq; cases hq
  | cons r rs => exact fun q hq => h.2 q (by rw [List.dropLast_cons_cons]; exact List.mem_cons_of_mem _ hq)

/-- An encrypted payload of a well-formed chain ends it, so the field behind it
names its own first payload. -/
theorem Payloads.WF.nextType_sk {p : Payload} {ps : Payloads} (h : Payloads.WF (p :: ps)) :
    ∀ e, p = .sk e → nextType p ps = e.innerFirst := by
  rintro e rfl
  cases ps with
  | nil => rfl
  | cons q qs => cases h.2 (.sk e) (by rw [List.dropLast_cons_cons]; exact List.mem_cons_self)

/-- The type a chain announces for its rest is the one the rest starts with,
whatever is announced for an empty rest. -/
theorem parseChain_nextType (p : Payload) (ps : Payloads) (b : Bytes) (hb : ps = [] → b = []) :
    parseChain (nextType p ps) b = parseChain (firstType ps) b := by
  cases ps with
  | nil => rw [hb rfl, parseChain, parseChain, many_nil, many_nil]
  | cons q qs => rfl

theorem marshalChain_roundTrips : ∀ {ps : Payloads}, ps.WF →
    RoundTrips (marshalChain ps) ps.size (parseChain (firstType ps)) ps
  | [], _ => ⟨[], rfl, rfl, rfl⟩
  | p :: ps, h => by
      obtain ⟨hp, hn⟩ := h.1 p List.mem_cons_self
      obtain ⟨unmarshalBody, ht, body, hm, hlen, hu⟩ := Payload.roundTrips hp hn h.nextType_sk
      obtain ⟨more, hms, hlens, hus⟩ := marshalChain_roundTrips h.tail
      have hitem : parsePayload p.payloadType
          ((genericHeader (nextType p ps) body.length ++ body) ++ more) =
            .ok ([p], nextType p ps, more) :=
        parsePayload_append ht hu (by omega)
      have hmore : ps = [] → more = [] := by
        rintro rfl
        exact (Except.ok.inj hms).symm
      refine ⟨(genericHeader (nextType p ps) body.length ++ body) ++ more, ?_, ?_, ?_⟩
      · rw [marshalChain, hm, ok_bind]
        have hfits : ¬ body.length > 0xFFFF - genericHeaderLen := by rw [genericHeaderLen]; omega
        rw [if_neg hfits, hms, ok_bind, List.append_assoc]
        rfl
      · rw [Payloads.size, List.map_cons, List.sum_cons, ← Payloads.size, ← hlens, ← hlen]
        simp only [List.length_append, length_genericHeader, genericHeaderLen]
      · rw [firstType, parseChain, many_append consumes_parsePayload hitem, ← parseChain,
          parseChain_nextType p ps more hmore, hus]
        rfl

/-- A payload of a chain that was encoded fits its length field. -/
theorem length_le_of_marshalChain {ps : Payloads} {b : Bytes} (h : marshalChain ps = .ok b) :
    ∀ p ∈ ps, ∃ body, p.marshalBody = .ok body ∧ body.length ≤ 65531 := by
  induction ps generalizing b with
  | nil => intro p hp; cases hp
  | cons q ps ih =>
      rw [marshalChain, bind_eq_ok] at h
      obtain ⟨body, hbody, h⟩ := h
      dsimp only at h
      split at h
      · cases h
      · rename_i hfits
        rw [bind_eq_ok] at h
        obtain ⟨more, hmore, -⟩ := h
        intro p hp
        rcases List.mem_cons.mp hp with rfl | hp
        · rw [genericHeaderLen] at hfits
          exact ⟨body, hbody, by omega⟩
        · exact ih hmore p hp

theorem RoundTrips.size_le {α : Type} {marshal : Go Bytes} {n : Nat} {unmarshal : Bytes → Go α}
    {a : α} (h : RoundTrips marshal n unmarshal a)
    (hfits : ∃ body, marshal = .ok body ∧ body.length ≤ 65531) : n ≤ 65531 := by
  obtain ⟨body, hm, hlen, -⟩ := h
  obtain ⟨body', hm', hle⟩ := hfits
  cases hm.symm.trans hm'
  omega

/-! ## Messages -/

@[simp] theorem Message.length_header (m : Message) (first : PayloadType) (n : Nat) :
    (m.header first n).length = 28 := by
  simp [Message.header]

/-- Reading a header that declares the length of what follows. -/
theorem parse_header {m : Message} {first : PayloadType} {body : Bytes}
    (hn : headerLen + body.length < 2 ^ 32) :
    parse (m.header first body.length ++ body) =
      parseChain first body >>= fun ps => .ok { m with payloads := ps } := by
  have hlen : (UInt32.ofNat (headerLen + body.length)).toNat = 28 + body.length := by
    rw [UInt32.toNat_ofNat', headerLen]
    rw [headerLen] at hn
    omega
  rw [Message.header]
  simp only [List.append_assoc]
  generalize hb : putUint64 m.initiatorSPI ++ (putUint64 m.responderSPI ++
    ([first, version, m.exchange, m.flags] ++ (putUint32 m.messageID ++
      (putUint32 (UInt32.ofNat (headerLen + body.length)) ++ body)))) = b
  have hblen : b.length = 28 + body.length := by rw [← hb]; simp; omega
  have hlength : slice b 24 28 = .ok (putUint32 (UInt32.ofNat (headerLen + body.length))) := by
    rw [← hb, slice_append_of_ge (by simp) (by simp), slice_append_of_ge (by simp) (by simp),
      slice_append_of_ge (by simp) (by simp), slice_mid (by simp) (by simp)]
  have hspii : slice b 0 8 = .ok (putUint64 m.initiatorSPI) := by
    rw [← hb, slice_append_of_le (by simp), slice_all (by simp)]
  have hspir : slice b 8 16 = .ok (putUint64 m.responderSPI) := by
    rw [← hb, slice_mid (by simp) (by simp)]
  have hindex (i : Nat) (x : UInt8) (hx : index [first, version, m.exchange, m.flags] i = .ok x)
      (hi : i < 4) : index b (16 + i) = .ok x := by
    rw [← hb, index_append_of_ge (by simp; omega), index_append_of_ge (by simp; omega),
      index_append_of_lt (by simp; omega), ← hx]
    congr 1
    simp
    omega
  have hid : slice b 20 24 = .ok (putUint32 m.messageID) := by
    rw [← hb, slice_append_of_ge (by simp) (by simp), slice_append_of_ge (by simp) (by simp),
      slice_mid (by simp) (by simp)]
  have hrest : sliceFrom b headerLen = .ok body := by
    rw [← hb, ← List.append_assoc, ← List.append_assoc, ← List.append_assoc, ← List.append_assoc,
      sliceFrom_append (by simp [headerLen])]
  have hmin : ¬ b.length < headerLen := by rw [headerLen]; omega
  rw [parse, if_neg hmin, hlength, ok_bind, uint32_putUint32, ok_bind]
  simp only [hlen]
  rw [if_neg (by rw [headerLen]; omega), if_neg (by omega), hspii, ok_bind, uint64_putUint64, ok_bind,
    hspir, ok_bind, uint64_putUint64, ok_bind, hindex 2 _ rfl (by omega), ok_bind,
    hindex 3 _ rfl (by omega), ok_bind, hid, ok_bind, uint32_putUint32, ok_bind,
    hindex 0 _ rfl (by omega), ok_bind, hrest, ok_bind]
  rfl

/-- Every well-formed message has an encoding, and decoding it gives the message
back. -/
theorem parse_marshal (m : Message) (h : m.WF) :
    ∃ raw, m.marshal = .ok raw ∧ parse raw = .ok m := by
  obtain ⟨hps, hn⟩ := h
  obtain ⟨body, hm, hlen, hu⟩ := marshalChain_roundTrips hps
  refine ⟨m.header (firstType m.payloads) body.length ++ body, ?_, ?_⟩
  · rw [Message.marshal, Payloads.marshal, hm]
    rfl
  · rw [parse_header (by rwa [hlen]), hu]
    rfl

/-- A CREATE_CHILD_SA request of the kind the driver sends, with one encrypted
payload behind its cleartext ones. -/
def sampleMessage : Message where
  initiatorSPI := 0x0102030405060708
  responderSPI := 0xfffefdfcfbfaf9f8
  exchange := exchangeCreateChildSA
  flags := flagInitiator
  messageID := 7
  payloads := [
    .sa { proposals := [
      { number := 1, protocol := protocolESP, spi := [1, 2, 3, 4],
        transforms := [
          { type := transformEncr, id := encrAESCBC, keyLength := 256, hasKeyLength := true },
          { type := transformInteg, id := authHMACSHA2256128 }] },
      { number := 2, protocol := protocolESP, spi := [5, 6, 7, 8],
        transforms := [{ type := transformEncr, id := encrChaCha20Poly1305 }] }] },
    .nonce { data := List.replicate 32 9 },
    .notify { protocol := protocolESP, type := notifyRekeySA, spi := [9, 9, 9, 9] },
    .delete { protocol := protocolESP, spis := [[1, 2, 3, 4], [5, 6, 7, 8]] },
    .tsi { selectors := [{ tsType := tsIPv4AddrRange, startPort := 0, endPort := 65535,
                           startAddr := [0, 0, 0, 0], endAddr := [255, 255, 255, 255] }] },
    .cp { cfgType := 1, attributes := [{ type := 1 }, { type := 3, value := [8, 8, 8, 8] }] },
    .sk { innerFirst := payloadSA, data := [1, 2, 3] }]

theorem parse_marshal_sampleMessage :
    ∃ raw, sampleMessage.marshal = .ok raw ∧ parse raw = .ok sampleMessage :=
  parse_marshal sampleMessage (by decide)

end GoIpsec.Ikemsg
