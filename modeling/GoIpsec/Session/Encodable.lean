import GoIpsec.Ikesa.Agreement
import GoIpsec.Session.Legible

/-!
# Requests that go out

The exchanges of ours that the control loop starts need keys of the right lengths, a group we
support and the random source.  While these are there, a request is always made: it can be
encoded, it is counted, and it is outstanding afterwards.  Whether the transport takes it
makes no difference, since it is repeated.
-/

set_option linter.dupNamespace false

namespace GoIpsec.Session

open Golang Ikemsg Ikesa

/-! ## Encoding -/

/-- Legible payloads that are not too long make a well-formed chain. -/
theorem wf_of_size {inner : Payloads} (h : ∀ p ∈ inner, Legible p) (hsize : inner.size ≤ 65535) :
    inner.WF := by
  refine ⟨fun p hp => ⟨(h p hp).wf, ?_⟩, fun p hp => (h p (List.dropLast_subset _ hp)).isSK⟩
  have hle : genericHeaderLen + p.bodySize ≤ inner.size :=
    List.le_sum_of_mem (List.mem_map_of_mem (f := fun p : Payload => genericHeaderLen + p.bodySize) hp)
  rw [genericHeaderLen] at hle
  omega

section

variable {c : Crypto} {ike : IKESA} {rand : RandRead} {inner : Payloads}

/-- What was encrypted can be made into a message if it fits. -/
theorem finalizeSK_ok {pt skData : Bytes} {ike' : IKESA} {m : Message} {t : PayloadType}
    (h : ike.CanSeal rand) (henc : ike.encryptToSK c rand pt = (.ok skData, ike'))
    (hfits : skData.length ≤ 65531) (hm : m.payloads = [.sk { innerFirst := t, data := skData }]) :
    ∃ raw₀ raw, m.marshal = .ok raw₀ ∧ ike.finalizeSK c raw₀ skData.length = .ok raw := by
  obtain ⟨raw, hraw⟩ := h.finalizeSK henc (Nat.le_of_eq (length_skPrefix m t skData.length).symm)
  exact ⟨_, raw, marshal_sk hm hfits, hraw⟩

/-- A chain can be encoded exactly if the IKE SA can protect it and the result fits. -/
theorem encodeSKWith_ok_iff (hinner : ∀ p ∈ inner, Legible p) {spii spir : UInt64}
    {exchange : ExchangeType} {flags : Flags} {msgID : UInt32} :
    (∃ raw, (encodeSKWith c ike rand spii spir exchange flags msgID inner).1 = .ok raw) ↔
      ike.CanSeal rand ∧ ike.sealedLen inner.size ≤ 65531 := by
  constructor
  · rintro ⟨raw, hraw⟩
    unfold encodeSKWith at hraw
    split at hraw
    · cases hraw
    rename_i t pt hmarshal
    obtain ⟨-, hpt⟩ := Payloads.marshal_eq_ok.mp (wrapErr_eq_ok.mp hmarshal)
    obtain ⟨pt', hpt', hlen, -⟩ := marshalChain_roundTrips (wf_of_legible hinner hpt)
    cases hpt.symm.trans hpt'
    simp only [bind_eq_ok, wrapErr_eq_ok] at hraw
    obtain ⟨skData, hsk, raw₀, hraw₀, hfinal⟩ := hraw
    have henc : ike.encryptToSK c rand pt = (.ok skData, _) := Prod.ext hsk rfl
    refine ⟨IKESA.canSeal_of_finalizeSK henc hfinal, ?_⟩
    rw [← hlen, ← IKESA.encryptToSK_length henc]
    exact length_of_marshal_sk rfl hraw₀
  · rintro ⟨hseal, hfits⟩
    have hle := ike.le_sealedLen inner.size
    obtain ⟨pt, hpt, hlen, -⟩ := marshalChain_roundTrips (wf_of_size hinner (by omega))
    obtain ⟨skData, ike', henc⟩ := hseal.encryptToSK c pt
    have hmarshal : inner.marshal = .ok (firstType inner, pt) := Payloads.marshal_eq_ok.mpr ⟨rfl, hpt⟩
    obtain ⟨raw₀, raw, hraw₀, hraw⟩ := finalizeSK_ok (m :=
      { skHeader spii spir exchange flags msgID with
        payloads := [.sk { innerFirst := firstType inner, data := skData }] }) hseal henc
      (by rw [IKESA.encryptToSK_length henc, hlen]; exact hfits) rfl
    refine ⟨raw, ?_⟩
    unfold encodeSKWith
    rw [hmarshal]
    simp only [wrapErr_ok, henc, ok_bind]
    exact bind_eq_ok.mpr ⟨raw₀, wrapErr_eq_ok.mpr hraw₀, hraw⟩

/-- An IKE SA with its keys encodes whatever is not too long. -/
theorem encodeSKWith_ok (hwf : ike.WF) (hrand : rand.isSome = true) (hinner : ∀ p ∈ inner, Legible p)
    (hsize : inner.size ≤ 65000) (spii spir : UInt64) (exchange : ExchangeType) (flags : Flags)
    (msgID : UInt32) :
    ∃ raw, (encodeSKWith c ike rand spii spir exchange flags msgID inner).1 = .ok raw := by
  have hle := ike.sealedLen_le inner.size
  exact (encodeSKWith_ok_iff hinner).mpr ⟨hwf.canSeal hrand, by omega⟩

theorem encodeSKEmptyWith_ok (hwf : ike.WF) (hrand : rand.isSome = true) (spii spir : UInt64)
    (exchange : ExchangeType) (flags : Flags) (msgID : UInt32) :
    ∃ raw, (encodeSKEmptyWith c ike rand spii spir exchange flags msgID).1 = .ok raw := by
  have hseal := hwf.canSeal hrand
  have hle := ike.sealedLen_le 0
  obtain ⟨skData, ike', henc⟩ := hseal.encryptToSK c []
  obtain ⟨raw₀, raw, hraw₀, hraw⟩ := finalizeSK_ok (m :=
    { skHeader spii spir exchange flags msgID with
      payloads := [.sk { innerFirst := payloadNone, data := skData }] }) hseal henc
    (by rw [IKESA.encryptToSK_length henc, List.length_nil]; omega) rfl
  refine ⟨raw, ?_⟩
  unfold encodeSKEmptyWith
  simp only [henc, ok_bind]
  exact bind_eq_ok.mpr ⟨raw₀, hraw₀, hraw⟩

end

/-! ## The sizes of our messages -/

section

variable {ID : Type} [SuiteID ID]

theorem size_buildProposalForSuite_le (number : UInt8) (s : TransformSuite ID) (spi : Bytes)
    (groups : List UInt16) :
    (buildProposalForSuite number s spi groups).size ≤ spi.length + 12 * groups.length + 80 := by
  have hsum := sum_transform_sizes (buildProposalForSuite number s spi groups).transforms
  have hlen : (buildProposalForSuite number s spi groups).transforms.length ≤ 6 + groups.length := by
    simp only [buildProposalForSuite, List.length_append, List.length_map, List.length_singleton]
    split <;> split <;> split <;> simp <;> omega
  have hspi : (buildProposalForSuite number s spi groups).spi = spi := rfl
  rw [Proposal.size, hspi]
  omega

theorem size_buildProposals_le (spi : Bytes) (suites : List (TransformSuite ID)) (groups : List UInt16) :
    ((buildProposals spi suites groups).map Proposal.size).sum ≤
      suites.length * (spi.length + 12 * groups.length + 80) := by
  unfold buildProposals
  generalize 0 = i
  induction suites generalizing i with
  | nil => exact Nat.zero_le _
  | cons s suites ih =>
      have hhead := size_buildProposalForSuite_le (UInt8.ofNat (i + 1)) s spi groups
      rw [buildProposalsFrom, List.map_cons, List.sum_cons, List.length_cons, Nat.succ_mul,
        Nat.add_comm]
      exact Nat.add_le_add (ih (i + 1)) hhead

end

section

variable {c : Crypto} {rand : RandRead}

theorem size_append (ps qs : Payloads) : Payloads.size (ps ++ qs) = ps.size + qs.size := by
  simp [Payloads.size]

theorem newDH_ok {group : UInt16} (hgroup : supportedDHGroup group = true) (hrand : rand.isSome = true) :
    ∃ dh, newDH c group rand = .ok dh := by
  obtain ⟨f, rfl⟩ := Option.isSome_iff_exists.mp hrand
  have hmem : group = dhX25519 ∨ group = dhMODP2048 := by
    simpa [supportedDHGroup, preferredDHGroups] using hgroup
  rcases hmem with rfl | rfl
  · exact ⟨_, rfl⟩
  · exact ⟨_, rfl⟩

/-- The length of a public value. -/
def publicLen (group : UInt16) : Nat := if group = dhGroup14 then modp2048Len else 32

theorem length_pub {group : UInt16} {dh : DH} (h : newDH c group rand = .ok dh) :
    dh.pub.length = publicLen group := by
  by_cases h14 : group = dhGroup14
  · subst h14
    obtain ⟨a, -, -, -, hpub⟩ := newDH_modp h
    rw [hpub, length_putBE]
    rfl
  · unfold newDH at h
    rw [if_neg h14] at h
    rw [publicLen, if_neg h14]
    split at h
    · obtain ⟨priv, -, h⟩ := bind_eq_ok.mp h
      cases h
      exact c.x25519Public_length _
    · cases h

theorem length_pub_le {group : UInt16} {dh : DH} (h : newDH c group rand = .ok dh) :
    dh.pub.length ≤ 256 := by
  rw [length_pub h, publicLen, modp2048Len]
  split <;> omega

theorem size_trafficSelectors_le (v6 : Bool) : Payloads.size (trafficSelectors v6) ≤ 200 := by
  cases v6 <;> decide

theorem size_ke_le {dh : Option DH} (h : ∀ p, dh = some p → p.pub.length ≤ 256) :
    Payloads.size (dh.toList.map fun d => .ke { group := d.group, data := d.pub }) ≤ 264 := by
  cases dh with
  | none => exact Nat.zero_le _
  | some p =>
      have hle := h p rfl
      simp only [Option.toList_some, List.map_cons, List.map_nil, Payloads.size, List.sum_cons,
        List.sum_nil, Payload.bodySize, genericHeaderLen]
      omega

/-- A request for a Child SA can be encoded. -/
theorem size_childRekeyRequest_le {suites : List EspSuite} {v6 reestablish : Bool} {oldInSPI : UInt32}
    {newSPI ni : Bytes} {dh : Option DH} (hsuites : suites.length ≤ 255) (hspi : newSPI.length = 4)
    (hni : ni.length = nonceLen) (hdh : ∀ p, dh = some p → p.pub.length ≤ 256) :
    (childRekeyRequest suites v6 oldInSPI reestablish newSPI ni dh).size ≤ 65000 := by
  have hgroups : (dh.toList.map DH.group).length ≤ 1 := by cases dh <;> simp
  have hsum := size_buildProposals_le newSPI suites (dh.toList.map DH.group)
  have hbound : suites.length * (newSPI.length + 12 * (dh.toList.map DH.group).length + 80) ≤
      255 * 96 := Nat.mul_le_mul hsuites (by omega)
  have hke := size_ke_le hdh
  have hts := size_trafficSelectors_le v6
  have hnotify : Payloads.size (if reestablish then [] else
      [.notify { protocol := protocolESP, type := notifyRekeySA, spi := putUint32 oldInSPI }]) ≤ 12 := by
    cases reestablish <;> simp [Payloads.size, Payload.bodySize, genericHeaderLen]
  have hsa : Payloads.size [.sa { proposals := buildProposals newSPI suites (dh.toList.map DH.group) },
      .nonce { data := ni }] =
        ((buildProposals newSPI suites (dh.toList.map DH.group)).map Proposal.size).sum + 40 := by
    simp [Payloads.size, Payload.bodySize, genericHeaderLen, hni, nonceLen]
    omega
  rw [childRekeyRequest, size_append, size_append, size_append, hsa]
  omega

/-- A request for an IKE SA can be encoded. -/
theorem size_ikeRekeyRequest_le {suites : List IkeSuite} {spi : UInt64} {ni : Bytes} {dh : DH}
    (hsuites : suites.length ≤ 255) (hni : ni.length = nonceLen) (hdh : dh.pub.length ≤ 256) :
    (ikeRekeyRequest suites (putUint64 spi) ni dh).size ≤ 65000 := by
  have hsum := size_buildProposals_le (putUint64 spi) suites [dh.group]
  have hbound : suites.length * ((putUint64 spi).length + 12 * [dh.group].length + 80) ≤ 255 * 100 :=
    Nat.mul_le_mul hsuites (by simp)
  have hsize : (ikeRekeyRequest suites (putUint64 spi) ni dh).size =
      ((buildProposals (putUint64 spi) suites [dh.group]).map Proposal.size).sum + 48 +
        dh.pub.length := by
    simp [ikeRekeyRequest, Payloads.size, Payload.bodySize, genericHeaderLen, hni, nonceLen]
    omega
  omega

/-- The size of a proposal for ESP with an SPI and some groups. -/
theorem size_espProposal (number : UInt8) (s : EspSuite) (spi : Bytes) (groups : List UInt16) :
    (buildProposalForSuite number s spi groups).size =
      16 + spi.length + (if s.keyBits = 0 then 8 else 12) + (if s.aead then 0 else 8) +
        8 * groups.length := by
  have hesp : s.protocol = protocolESP := rfl
  have hgroups : ((groups.map fun g => ({ type := transformDH, id := g } : Transform)).map
      Transform.size).sum = 8 * groups.length := by
    simp [Function.comp_def, Transform.size, Nat.mul_comm]
  have hencr : Transform.size { type := transformEncr, id := s.encrID, keyLength := s.keyBits,
                                hasKeyLength := s.keyBits != 0 } = if s.keyBits = 0 then 8 else 12 := by
    by_cases hbits : s.keyBits = 0 <;> simp [Transform.size, hbits]
  rw [Proposal.size, buildProposalForSuite, hesp, if_neg (by decide), if_pos rfl]
  simp only [List.map_append, List.sum_append, hgroups, List.map_cons, List.map_nil, List.sum_cons,
    List.sum_nil, hencr]
  cases s.aead <;> simp [Transform.size] <;> omega

/-- The size of the answer to a request for a Child SA, with a public value of the given length. -/
def answerSize (requestIPv6 : Bool) (suite : EspSuite) (pubLen : Option Nat) (req : ChildRekeyRequest) :
    Nat :=
  (24 + (if suite.keyBits = 0 then 8 else 12) + (if suite.aead then 0 else 8)) + (4 + nonceLen) +
    (pubLen.map (16 + ·)).getD 0 +
    if 0 < req.tsi.length ∧ 0 < req.tsr.length then
      8 + selectorsSize req.tsi + selectorsSize req.tsr
    else Payloads.size (trafficSelectors requestIPv6)

theorem size_childRekeyAnswer {v6 : Bool} {number : UInt8} {suite : EspSuite} {newSPI nr : Bytes}
    {dh : Option DH} {req : ChildRekeyRequest} (hspi : newSPI.length = 4) (hnr : nr.length = nonceLen) :
    (childRekeyAnswer v6 number suite newSPI nr dh req).size =
      answerSize v6 suite (dh.map fun d => d.pub.length) req := by
  have hsa : Payloads.size [.sa { proposals :=
      [buildProposalForSuite number suite newSPI (dh.toList.map DH.group)] }, .nonce { data := nr }] =
        24 + (if suite.keyBits = 0 then 8 else 12) + (if suite.aead then 0 else 8) +
          8 * (dh.toList.map DH.group).length + (4 + nonceLen) := by
    simp only [Payloads.size, Payload.bodySize, genericHeaderLen, List.map_cons, List.map_nil,
      List.sum_cons, List.sum_nil, size_espProposal, hspi, hnr]
    omega
  have hke : 8 * (dh.toList.map DH.group).length +
      Payloads.size (dh.toList.map fun d => .ke { group := d.group, data := d.pub }) =
        ((dh.map fun d => d.pub.length).map (16 + ·)).getD 0 := by
    cases dh with
    | none => rfl
    | some d =>
        simp [Payloads.size, Payload.bodySize, genericHeaderLen]
        omega
  have hts : Payloads.size [.tsi { selectors := req.tsi }, .tsr { selectors := req.tsr }] =
      8 + selectorsSize req.tsi + selectorsSize req.tsr := by
    simp [Payloads.size, Payload.bodySize, genericHeaderLen]
    omega
  rw [childRekeyAnswer, size_append, size_append, hsa, answerSize, apply_ite Payloads.size, hts]
  omega

end

/-! ## Requests of ours -/

/-- The random source works. -/
def Env.Random (env : Env) : Prop := ∀ n, (env.rand n).isSome = true

/-- What it takes to start an exchange. -/
structure Session.Able (s : Session) : Prop where
  ike : s.ikeSA.WF
  child : s.child.isSome = true
  espSuites : s.enabledESPSuites.length ≤ 255
  ikeSuites : s.enabledIKESuites.length ≤ 255
  ikeGroup : supportedDHGroup s.ikeDHGroup = true
  childGroup : s.childPFS = true → supportedDHGroup s.childRekeyGroup = true

theorem Session.Able.congr {s s' : Session} (h : s.Able) (hike : s'.ikeSA.WF) (hchild : s'.child = s.child)
    (hcfg : s'.cfg = s.cfg) (hgroup : s'.ikeDHGroup = s.ikeDHGroup) (hpfs : s'.childPFS = s.childPFS)
    (hpfsGroup : s'.childPFSGroup = s.childPFSGroup) : s'.Able := by
  refine ⟨hike, hchild ▸ h.child, ?_, ?_, hgroup ▸ h.ikeGroup, ?_⟩
  · rw [Session.enabledESPSuites, hcfg]
    exact h.espSuites
  · rw [Session.enabledIKESuites, hcfg]
    exact h.ikeSuites
  · rw [Session.childRekeyGroup, hpfs, hpfsGroup, hgroup]
    exact h.childGroup

/-- The session with a request outstanding that was just sent. -/
def Session.asking (s : Session) (n n' : UInt64) (p : PendingExchange) : Session :=
  { s.withSeq n n' with messageID := s.messageID + 1, pending := some p }

theorem Session.Able.asking {s : Session} (h : s.Able) {n n' : UInt64} {p : PendingExchange} :
    (s.asking n n' p).Able :=
  h.congr ⟨h.ike.skd, h.ike.skei, h.ike.sker, h.ike.aead⟩ rfl rfl rfl rfl rfl

/-- A request of a kind was made, to be repeated after `base`. -/
def GoesOut (env : Env) (kind : ExchangeKind → Prop) (base : Duration) (fast : Bool) (s s' : Session) :
    Prop :=
  ∃ n n' p, s' = s.asking n n' p ∧ kind p.kind ∧ p.attempts = 1 ∧ p.fast = fast ∧
    p.nextRetransmit = (env.clock .request).add base

section

variable {c : Crypto} {env : Env} {d : Drive}

theorem GoesOut.mono {kind kind' : ExchangeKind → Prop} {base : Duration} {fast : Bool} {s s' : Session}
    (h : GoesOut env kind base fast s s') (hkind : ∀ k, kind k → kind' k) :
    GoesOut env kind' base fast s s' := by
  obtain ⟨n, n', p, hs, hk, hrest⟩ := h
  exact ⟨n, n', p, hs, hkind _ hk, hrest⟩

theorem randBytes_ok (hrand : env.Random) (n : Nat) (d : Drive) :
    ∃ b, randBytes env n d = (.ok b, { d with reads := d.reads + 1 }) ∧ b.length = n := by
  obtain ⟨b, hb⟩ := RandRead.full_ok (hrand d.reads) n
  exact ⟨b, congrArg (·, { d with reads := d.reads + 1 }) hb, RandRead.full_length hb⟩

theorem newDHFor_ok {group : UInt16} (hrand : env.Random) (hgroup : supportedDHGroup group = true)
    (d : Drive) : ∃ dh, newDHFor c env group d = (.ok dh, { d with reads := d.reads + 1 }) ∧
      dh.pub.length ≤ 256 := by
  obtain ⟨dh, hdh⟩ := newDH_ok (c := c) hgroup (hrand d.reads)
  exact ⟨dh, congrArg (·, { d with reads := d.reads + 1 }) hdh, length_pub_le hdh⟩

theorem newChildDH_ok (hrand : env.Random)
    (hgroup : d.s.childPFS = true → supportedDHGroup d.s.childRekeyGroup = true) :
    ∃ dh d', newChildDH c env d = (.ok dh, d') ∧ d'.s = d.s ∧ ∀ p, dh = some p → p.pub.length ≤ 256 := by
  rw [newChildDH, run_session_bind]
  split
  · obtain ⟨dh, hdh, hlen⟩ := newDHFor_ok (c := c) hrand (hgroup ‹_›) d
    rw [Proc.bind_of_ok hdh]
    refine ⟨some dh, _, rfl, rfl, fun p hp => ?_⟩
    cases hp
    exact hlen
  · exact ⟨none, d, rfl, rfl, nofun⟩

/-- A request that can be encoded is outstanding afterwards, whether it was sent or not. -/
theorem request_goesOut {kind : ExchangeKind} {base : Duration} {fast : Bool}
    {encode : Flags → UInt32 → Drv Bytes} {raw : Bytes} {d₁ : Drive} {n n' : UInt64}
    (henc : encode (ikeRoleBit d.s.ikeSA.role) d.s.messageID d = (.ok raw, d₁))
    (hs : d₁.s = d.s.withSeq n n') :
    ∃ r d', request env kind base fast encode d = (r, d') ∧ Safe r ∧
      GoesOut env (· = kind) base fast d.s d'.s := by
  rw [request, run_session_bind, Proc.bind_of_ok henc, Proc.bind_of_ok (setPending_apply ..)]
  refine ⟨_, _, rfl, ?_, n, n', ⟨kind, d.s.messageID, raw, 1, (env.clock .request).add base, fast⟩, ?_,
    rfl, rfl, rfl, rfl⟩
  · split
    · exact Safe.ok _
    · exact Safe.fail _
  · dsimp only
    rw [hs]
    rfl

theorem encodeIn_ok (hwf : d.s.ikeSA.WF) (hrand : env.Random) {inner : Payloads}
    (hinner : ∀ p ∈ inner, Legible p) (hsize : inner.size ≤ 65000) (exchange : ExchangeType)
    (flags : Flags) (msgID : UInt32) :
    ∃ raw d₁ n n', encodeSK c env exchange flags msgID inner d = (.ok raw, d₁) ∧
      d₁.s = d.s.withSeq n n' := by
  obtain ⟨raw, hraw⟩ := encodeSKWith_ok (c := c) hwf (hrand d.reads) hinner hsize d.s.initiatorSPI
    d.s.responderSPI exchange flags msgID
  have henc : Encoded c .cur exchange flags msgID inner d
      (encodeIn c env .cur exchange flags msgID inner d) := encoded_encodeIn ..
  have hok : (encodeIn c env .cur exchange flags msgID inner d).1 = .ok raw := by
    simp only [encodeIn, Session.ctx, hraw]
  rw [encodeSK]
  generalize encodeIn c env .cur exchange flags msgID inner d = res at henc hok
  cases henc with
  | failed e d' n n' hs hlog => cases hok
  | done raw' d' n n' ctx hctx hraw' hs hlog => exact ⟨raw', d', n, n', rfl, hs⟩

theorem encodeSKEmpty_ok (hwf : d.s.ikeSA.WF) (hrand : env.Random) (exchange : ExchangeType)
    (flags : Flags) (msgID : UInt32) :
    ∃ raw d₁ n n', encodeSKEmpty c env exchange flags msgID d = (.ok raw, d₁) ∧
      d₁.s = d.s.withSeq n n' := by
  obtain ⟨raw, hraw⟩ := encodeSKEmptyWith_ok (c := c) hwf (hrand d.reads) d.s.initiatorSPI
    d.s.responderSPI exchange flags msgID
  have henc : Encoded c .cur exchange flags msgID [] d
      (encodeEmptyIn c env .cur exchange flags msgID d) := encoded_encodeEmptyIn ..
  have hok : (encodeEmptyIn c env .cur exchange flags msgID d).1 = .ok raw := by
    simp only [encodeEmptyIn, Session.ctx, hraw]
  rw [encodeSKEmpty]
  generalize encodeEmptyIn c env .cur exchange flags msgID d = res at henc hok
  cases henc with
  | failed e d' n n' hs hlog => cases hok
  | done raw' d' n n' ctx hctx hraw' hs hlog => exact ⟨raw', d', n, n', rfl, hs⟩

/-- A probe goes out. -/
theorem initiateDPD_goesOut (hwf : d.s.ikeSA.WF) (hrand : env.Random) (fast : Bool) :
    ∃ r d', initiateDPD c env fast d = (r, d') ∧ Safe r ∧
      GoesOut env (· = .dpd) (if fast then fastDPDBase else d.s.retransmitBase) fast d.s d'.s := by
  obtain ⟨raw, d₁, n, n', henc, hs⟩ := encodeSKEmpty_ok (c := c) hwf hrand exchangeInformational
    (ikeRoleBit d.s.ikeSA.role) d.s.messageID
  rw [initiateDPD, run_session_bind]
  have hreq : ∃ r d', request env .dpd (if fast then fastDPDBase else d.s.retransmitBase) fast
      (fun flags msgID => encodeSKEmpty c env exchangeInformational flags msgID) d = (r, d') ∧ Safe r ∧
        GoesOut env (· = .dpd) (if fast then fastDPDBase else d.s.retransmitBase) fast d.s d'.s :=
    request_goesOut henc hs
  exact hreq

/-- A request for a Child SA goes out. -/
theorem initiateChildRekey_goesOut (h : d.s.Able) (hrand : env.Random) (reestablish : Bool) :
    ∃ r d', initiateChildRekey c env reestablish d = (r, d') ∧ Safe r ∧
      GoesOut env (fun k => ∃ ctx, k = .childRekey ctx ∧ ctx.reestablish = reestablish)
        d.s.retransmitBase false d.s d'.s := by
  obtain ⟨child, hchild⟩ := Option.isSome_iff_exists.mp h.child
  obtain ⟨newSPI, hspi, hspiLen⟩ := randBytes_ok hrand 4 d
  obtain ⟨newInSPI, hnew⟩ := uint32_ok (b := newSPI) (by omega)
  obtain ⟨ni, hni, hniLen⟩ := randBytes_ok hrand nonceLen { d with reads := d.reads + 1 }
  obtain ⟨dh, d₁, hdh, hs, hpub⟩ : ∃ dh d₁, newChildDH c env { d with reads := d.reads + 1 + 1 } =
      (.ok dh, d₁) ∧ d₁.s = d.s ∧ ∀ p, dh = some p → p.pub.length ≤ 256 :=
    newChildDH_ok hrand h.childGroup
  have hlegible : ∀ p ∈ childRekeyRequest d.s.enabledESPSuites d.s.cfg.requestIPv6 child.initiatorSPI
      reestablish newSPI ni dh, Legible p := legible_childRekeyRequest hspiLen hniLen
  obtain ⟨raw, d₂, n, n', henc, hs₂⟩ := encodeIn_ok (c := c) (d := d₁) (hs ▸ h.ike) hrand hlegible
    (size_childRekeyRequest_le h.espSuites hspiLen hniLen hpub) exchangeCreateChildSA
    (ikeRoleBit d₁.s.ikeSA.role) d₁.s.messageID
  rw [initiateChildRekey, run_session_bind, hchild]
  dsimp only
  rw [Proc.bind_of_ok hspi, Proc.bind_lift_of_ok hnew, Proc.bind_of_ok hni, Proc.bind_of_ok hdh,
    run_session_bind, hs]
  obtain ⟨r, d', hreq, hsafe, hout⟩ : ∃ r d', request env
      (.childRekey { newInSPI, oldInSPI := child.initiatorSPI, ni, reestablish, dh }) d.s.retransmitBase
      false (fun flags msgID => encodeSK c env exchangeCreateChildSA flags msgID
        (childRekeyRequest d.s.enabledESPSuites d.s.cfg.requestIPv6 child.initiatorSPI reestablish newSPI
          ni dh)) d₁ = (r, d') ∧ _ := request_goesOut henc hs₂
  rw [hs] at hout
  exact ⟨r, d', hreq, hsafe, hout.mono fun k hk => ⟨_, hk, rfl⟩⟩

/-- A request for an IKE SA goes out. -/
theorem initiateIKERekey_goesOut (h : d.s.Able) (hrand : env.Random) :
    ∃ r d', initiateIKERekey c env d = (r, d') ∧ Safe r ∧
      GoesOut env (fun k => ∃ ctx, k = .ikeRekey ctx) d.s.retransmitBase false d.s d'.s := by
  obtain ⟨b, hb, hlen⟩ := randBytes_ok hrand 8 d
  obtain ⟨spi, hspi⟩ := uint64_ok (b := b) (by omega)
  have hspiRun : randUint64 env d = (.ok spi, { d with reads := d.reads + 1 }) := by
    rw [randUint64, Proc.bind_of_ok hb, hspi]
    rfl
  obtain ⟨dh, hdh, hpub⟩ := newDHFor_ok (c := c) hrand h.ikeGroup { d with reads := d.reads + 1 }
  obtain ⟨ni, hni, hniLen⟩ := randBytes_ok hrand nonceLen { d with reads := d.reads + 1 + 1 }
  have hlegible : ∀ p ∈ ikeRekeyRequest d.s.enabledIKESuites (putUint64 spi) ni dh, Legible p :=
    legible_ikeRekeyRequest hniLen
  obtain ⟨raw, d₁, n, n', henc, hs⟩ := encodeIn_ok (c := c)
    (d := { d with reads := d.reads + 1 + 1 + 1 }) h.ike hrand hlegible
    (size_ikeRekeyRequest_le h.ikeSuites hniLen hpub) exchangeCreateChildSA
    (ikeRoleBit d.s.ikeSA.role) d.s.messageID
  rw [initiateIKERekey, Proc.bind_of_ok hspiRun, run_session_bind, Proc.bind_of_ok hdh,
    Proc.bind_of_ok hni, run_session_bind]
  obtain ⟨r, d', hreq, hsafe, hout⟩ : ∃ r d', request env (.ikeRekey { newSPIi := spi, ni, dh })
      d.s.retransmitBase false (fun flags msgID => encodeSK c env exchangeCreateChildSA flags msgID
        (ikeRekeyRequest d.s.enabledIKESuites (putUint64 spi) ni dh))
      { d with reads := d.reads + 1 + 1 + 1 } = (r, d') ∧ _ := request_goesOut henc hs
  exact ⟨r, d', hreq, hsafe, hout.mono fun k hk => ⟨_, hk⟩⟩

end

end GoIpsec.Session
