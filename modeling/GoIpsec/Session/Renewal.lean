import GoIpsec.Session.Progress

/-!
# The IKE SA is renewed

The request for an IKE SA comes to its end as that for a Child SA does.  What is new is the
order of things: the responder cuts over before its response is out, and the response is
still one of the old IKE SA.  The initiator has not cut over when it comes, deletes the old
IKE SA under itself and cuts over then.  Both are then at the two ends of the new IKE SA,
and no rekey is under way.
-/

set_option linter.dupNamespace false

namespace GoIpsec.Session

open Golang Ikemsg Ikesa

/-! ## Keys -/

section

variable {c : Crypto}

theorem length_leftPad_ne {b : Bytes} {n : Nat} (h : n ≠ 0) : (leftPad b n).length ≠ 0 := by
  unfold leftPad
  split
  · omega
  · rw [List.length_append, List.length_replicate]
    omega

/-- A shared secret is never empty. -/
theorem length_shared_ne {x : DH} {pub secret : Bytes} (h : x.shared c pub = .ok secret) : secret.length ≠ 0 := by
  unfold DH.shared at h
  split at h
  · split at h
    · cases h
    · dsimp only at h
      split at h
      · cases h
      · cases h
        exact length_leftPad_ne (by decide)
  · split at h
    · cases h
    · split at h
      · rename_i hsecret
        cases h
        rw [c.x25519_length _ _ _ hsecret]
        decide
      · cases h

theorem length_pub_ne {group : UInt16} {rand : RandRead} {x : DH} (h : newDH c group rand = .ok x) :
    x.pub.length ≠ 0 := by
  unfold newDH at h
  split_ifs at h
  · obtain ⟨b, -, h⟩ := bind_eq_ok.mp h
    cases h
    exact length_leftPad_ne (by decide)
  · obtain ⟨priv, -, h⟩ := bind_eq_ok.mp h
    cases h
    rw [c.x25519Public_length]
    decide
  · cases h

/-- The IKE SA of a rekey can always be derived. -/
theorem deriveRekeyIKE_exists {skd ni nr secret : Bytes} (suite : Ikesa.Suite) (role : Role) (spii spir : UInt64)
    (hskd : skd.length ≠ 0) (hni : ni.length = nonceLen) (hnr : nr.length = nonceLen) (hsecret : secret.length ≠ 0) :
    ∃ sa, deriveRekeyIKE c suite skd role spii spir ni nr secret = .ok sa := by
  obtain ⟨sa, -, hsa⟩ := deriveFromSKEYSEED_ok c suite spii spir ni nr (prf c skd (secret ++ (ni ++ nr)))
  have hnonces : ¬ (ni.length < Ikesa.minNonceLen ∨ nr.length < Ikesa.minNonceLen) := by
    rw [hni, hnr]
    decide
  exact ⟨sa role, by rw [deriveRekeyIKE, if_neg hskd, if_neg hnonces, if_neg hsecret, (hsa role).1]⟩

end

/-! ## What is offered -/

section

variable {c : Crypto}

theorem ikeRekeyPayloads_ok {props : List Proposal} {nonce : Bytes} {dh : DH} (hnonce : nonce.length = nonceLen)
    (hpub : dh.pub.length ≠ 0) :
    ikeRekeyPayloads [.sa { proposals := props }, .nonce { data := nonce }, .ke { group := dh.group, data := dh.pub }] =
      .ok ({ proposals := props }, nonce, { group := dh.group, data := dh.pub }) := by
  have hne : ¬ (nonce.length = 0 ∨ dh.pub.length = 0) := by
    rw [hnonce]
    exact not_or.mpr ⟨by decide, hpub⟩
  exact if_neg hne

theorem isIKERekey_ikeRekeyRequest {suites : List IkeSuite} (hsuites : ∀ s ∈ suites, s ∈ ikeSuites)
    (hne : suites ≠ []) (spi ni : Bytes) (dh : DH) : isIKERekey (ikeRekeyRequest suites spi ni dh) = true := by
  cases suites with
  | nil => exact (hne rfl).elim
  | cons s rest =>
      simp only [isIKERekey, ikeRekeyRequest, buildProposals, buildProposalsFrom, List.any_cons,
        buildProposalForSuite, protocol_ikeSuites (hsuites s List.mem_cons_self), BEq.rfl, Bool.true_or]

/-- What a responder reads in a request for an IKE SA. -/
structure OffersIKE (inner : Payloads) (enabled : List IkeSuite) (dh : DH) (saP : SAPayload) (ni : Bytes) : Prop where
  read : ikeRekeyPayloads inner = .ok (saP, ni, { group := dh.group, data := dh.pub })
  ike : isIKERekey inner = true
  group : supportedDHGroup dh.group = true
  nonce : ni.length = nonceLen
  select : ∃ prop suite, selectProposal saP enabled dh.group = some (prop, suite)

theorem Asks.offersIKE {m : Machine} {ctx : IkeRekeyCtx} {exchange : ExchangeType} {inner : Payloads}
    {enabled : List IkeSuite} (h : Asks c m (.ikeRekey ctx) exchange inner)
    (hcommon : ∃ suite ∈ m.ikeSuites, suite ∈ enabled) : ∃ saP, OffersIKE inner enabled ctx.dh saP ctx.ni := by
  cases h with
  | ikeRekey ctx hni hdh =>
      obtain ⟨suite, hs, hs'⟩ := hcommon
      obtain ⟨group, rand, hnew⟩ := hdh
      obtain ⟨rfl, hne⟩ := group_of_newDH hnew
      refine ⟨_, ikeRekeyPayloads_ok hni (length_pub_ne hnew), ?_, supported_of_newDH hnew, hni, ?_⟩
      · exact isIKERekey_ikeRekeyRequest (fun _ => mem_of_mem_enabledSuites) (List.ne_nil_of_mem hs) ..
      · have hgroups : [ctx.dh.group] = answerGroups ctx.dh.group := by simp [answerGroups, hne]
        rw [hgroups]
        exact selectProposal_offered hs hs' (by rw [spiLen_ikeSuite]; rfl)

end

/-! ## The responder -/

section

variable {c : Crypto} {env : Env} {d : Drive} {msgID : UInt32} {inner : Payloads}

theorem swapIKE_sends (newIKE : IKESA) (spii spir : UInt64) (d : Drive) :
    ∃ d', swapIKE env newIKE spii spir d = (.ok (), d') ∧
      (∀ h, d'.view h = (d.view h).swap { sa := newIKE, spii, spir }) ∧ d'.sent = d.sent ∧
      ∀ raw, d'.s.frame raw = d.s.frame raw := by
  unfold swapIKE
  rw [run_setSession_bind, run_session_bind]
  obtain ⟨t, d', hx, hs, hlog⟩ := jitteredDeadline_ok env _ _ _
  have hsent := congrArg (fun r => r.2.sent) hx
  rw [jitteredDeadline_sent] at hsent
  rw [Proc.bind_of_ok hx]
  refine ⟨_, rfl, fun h => ?_, hsent.symm, fun raw => ?_⟩
  · simp only [Drive.view, hs, hlog, Machine.swap]
    rfl
  · simp only [Session.frame, hs]

/-- An accepted IKE SA is made current before the response is sent. -/
theorem cutoverAnswered_sends (group : UInt16) (raw : Bytes) (newIKE : IKESA) (spii spir : UInt64) (d : Drive) :
    ∃ r d', (do
        recordPeerResponse .cur msgID raw
        emit (.cutover .responder msgID { sa := newIKE, spii, spir })
        swapIKE env newIKE spii spir
        setSession fun s => { s with ikeDHGroup := group }
        sendDatagram env raw : Drv Unit) d = (r, d') ∧ Safe r ∧
      d'.log = .cutover .responder msgID { sa := newIKE, spii, spir } :: .answered .cur msgID raw :: d.log ∧
      (d'.view {}).ike = IkeCtx.keys { sa := newIKE, spii, spir } ∧ d'.sent = d.s.frame raw :: d.sent := by
  rw [run_recordPeerResponse_bind, run_emit_bind]
  obtain ⟨d', hswap, hview, hsent, hframe⟩ := swapIKE_sends newIKE spii spir { d with
    s := d.s.record .cur msgID raw
    log := .cutover .responder msgID { sa := newIKE, spii, spir } :: .answered .cur msgID raw :: d.log }
  rw [Proc.bind_of_ok hswap, run_setSession_bind]
  refine ⟨_, _, rfl, ?_, congrArg Machine.log (hview {}), congrArg Machine.ike (hview {}), ?_⟩
  · dsimp only
    split
    · exact Safe.ok _
    · exact Safe.fail _
  · exact congrArg₂ List.cons (hframe raw) hsent

/-- What a request that is accepted leaves: the response, and the IKE SA that it says. -/
structure RespondsIKE (c : Crypto) (msgID : UInt32) (inner : Payloads) (dh : DH) (d d' : Drive)
    (resp : Payloads) (new : IkeCtx) (raw : Bytes) : Prop where
  accepts : AcceptsIKE c (d.view {}) inner resp new
  ke : ∀ ke, Payload.ke ke ∈ resp → ke = { group := dh.group, data := dh.pub }
  log : d'.log = .cutover .responder msgID new :: .answered .cur msgID raw ::
    .sealed .cur d.s.curIKE exchangeCreateChildSA (answerFlags d.s.curIKE) msgID resp raw :: d.log
  ike : (d'.view {}).ike = new.keys
  sent : d'.sent = d.s.frame raw :: d.sent

theorem size_ikeRekeyAnswer_le {number : UInt8} {suite : IkeSuite} {spi : UInt64} {nr : Bytes} {dh : DH}
    (hnr : nr.length = nonceLen) (hdh : dh.pub.length ≤ 256) :
    (ikeRekeyAnswer number suite (putUint64 spi) nr dh).size ≤ 65000 := by
  have hprop := size_buildProposalForSuite_le number suite (putUint64 spi) [dh.group]
  have hsize : (ikeRekeyAnswer number suite (putUint64 spi) nr dh).size =
      (buildProposalForSuite number suite (putUint64 spi) [dh.group]).size + 48 + dh.pub.length := by
    simp [ikeRekeyAnswer, Payloads.size, Payload.bodySize, genericHeaderLen, hnr, nonceLen]
    omega
  rw [hsize]
  simp only [length_putUint64, List.length_singleton] at hprop
  omega

theorem acceptIKERekey_accepts {saP : SAPayload} {ni secret : Bytes} {kei : KEPayload} {prop : Proposal}
    {suite : IkeSuite} {dh : DH} (hreq : ikeRekeyPayloads inner = .ok (saP, ni, kei))
    (hselect : selectProposal saP d.s.enabledIKESuites kei.group = some (prop, suite))
    (hdh : newDH c kei.group (env.rand d.reads) = .ok dh) (hsecret : dh.shared c kei.data = .ok secret)
    (hni : ni.length = nonceLen) (hwf : d.s.ikeSA.WF) (hrand : env.Random) :
    ∃ r d' resp new raw, acceptIKERekey c env msgID ni kei prop suite d = (r, d') ∧ Safe r ∧
      RespondsIKE c msgID inner dh d d' resp new raw := by
  obtain ⟨-, -, -, hspilen, -⟩ := selectProposal_eq_some hselect
  obtain ⟨spii, hspi⟩ := uint64_ok (b := prop.spi) (by rw [hspilen, spiLen_ikeSuite])
  obtain ⟨b, hb, hblen⟩ := randBytes_ok hrand 8 { d with reads := d.reads + 1 }
  obtain ⟨spir, hspir⟩ := uint64_ok (b := b) (by omega)
  obtain ⟨nr, hnr, hnrlen⟩ := randBytes_ok hrand nonceLen { d with reads := d.reads + 1 + 1 }
  have hskd : d.s.ikeSA.skd.length ≠ 0 := by rw [hwf.skd]; decide
  obtain ⟨newIKE, hnew⟩ := deriveRekeyIKE_exists (c := c) suite.id .responder spii spir hskd hni hnrlen
    (length_shared_ne hsecret)
  have haccepts : AcceptsIKE c (d.view {}) inner (ikeRekeyAnswer prop.number suite (putUint64 spir) nr dh) _ :=
    .intro hreq hselect hspi hdh hsecret hnrlen hnew
  have hsized : (ikeRekeyAnswer prop.number suite (putUint64 spir) nr dh).size ≤ 65000 :=
    size_ikeRekeyAnswer_le hnrlen (length_pub_le hdh)
  obtain ⟨raw, hraw⟩ := encodeSKWith_ok (c := c) hwf (hrand (d.reads + 1 + 1 + 1))
    haccepts.legible hsized d.s.initiatorSPI d.s.responderSPI
    exchangeCreateChildSA (answerFlags d.s.curIKE) msgID
  generalize hencode : encodeSKWith c d.s.ikeSA _ d.s.initiatorSPI d.s.responderSPI exchangeCreateChildSA
    (answerFlags d.s.curIKE) msgID _ = res at hraw
  obtain ⟨_, sa⟩ := res
  cases hraw
  have hsealed := encodeIn_apply (d := { d with reads := d.reads + 1 + 1 + 1 }) hencode
  have hdhRun : newDHFor c env kei.group d = (.ok dh, { d with reads := d.reads + 1 }) :=
    congrArg (·, { d with reads := d.reads + 1 }) hdh
  have hspiRun : randUint64 env { d with reads := d.reads + 1 } =
      (.ok spir, { d with reads := d.reads + 1 + 1 }) := by
    rw [randUint64, Proc.bind_of_ok hb, hspir]
    rfl
  have hflags (k : Nat) : responseFlags .cur { d with reads := k } =
      (.ok (answerFlags d.s.curIKE), { d with reads := k }) := rfl
  have hlift {α : Type} {v : Go α} {x : α} (hv : v = .ok x) (d : Drive) : (Proc.lift v : Drv α) d = (.ok x, d) := by
    rw [hv]
    rfl
  have hwrap : wrapErr "session: IKE rekey DH: " (dh.shared c kei.data) = .ok secret := by
    rw [hsecret]
    rfl
  rw [acceptIKERekey, Proc.bind_lift_of_ok hspi, Proc.bind_of_ok (Proc.onError_of_ok hdhRun),
    Proc.bind_of_ok (Proc.onError_of_ok (hlift hwrap _)), Proc.bind_of_ok (Proc.onError_of_ok hspiRun),
    Proc.bind_of_ok (Proc.onError_of_ok hnr), run_session_bind, Proc.bind_of_ok (Proc.onError_of_ok (hlift hnew _)),
    Proc.bind_of_ok (hflags _)]
  dsimp only
  rw [Proc.bind_of_ok (Proc.onError_of_ok hsealed)]
  generalize hd₁ : ({ Drive.spend _ _ _ _ with log := _ } : Drive) = d₁
  obtain ⟨r, d', hrun, hsafe, hlog, hike, hsent⟩ := cutoverAnswered_sends dh.group raw newIKE spii spir d₁
  refine ⟨r, d', _, _, raw, hrun, hsafe, haccepts, fun ke hke => ?_, ?_, hike, ?_⟩
  · simpa [ikeRekeyAnswer] using hke
  · rw [hlog, ← hd₁]
  · rw [hsent, ← hd₁]
    rfl

/-- The request for an IKE SA of a peer that offers one of our suites, when no rekey of ours is
under way. -/
theorem handleCreateChildSA_acceptsIKE {saP : SAPayload} {ni secret : Bytes} {x y : DH}
    (hoffers : OffersIKE inner d.s.enabledIKESuites x saP ni)
    (hidle : (d.s.pending.any fun p => p.kind.isRekey) = false)
    (hy : newDH c x.group (env.rand d.reads) = .ok y) (hsecret : y.shared c x.pub = .ok secret)
    (hwf : d.s.ikeSA.WF) (hrand : env.Random) :
    ∃ d' resp new raw, handleCreateChildSA c env msgID inner .cur d = (.ok (), d') ∧
      RespondsIKE c msgID inner y d d' resp new raw := by
  obtain ⟨prop, suite, hselect⟩ := hoffers.select
  obtain ⟨r, d', resp, new, raw, hrun, hsafe, hresponds⟩ := acceptIKERekey_accepts hoffers.read
    hselect hy hsecret hoffers.nonce hwf hrand
  have hhandle : handleIKERekeyRequest c env msgID inner d = (r, d') := by
    rw [handleIKERekeyRequest, run_session_bind, hoffers.read]
    dsimp only
    rw [if_neg (by rw [hoffers.group]; decide), hselect]
    exact hrun
  refine ⟨d', resp, new, raw, ?_, hresponds⟩
  unfold handleCreateChildSA
  rw [run_session_bind, if_neg (by rw [hidle]; decide), if_pos hoffers.ike]
  exact attempt_of_safe hhandle hsafe

end

/-! ## The initiator -/

section

variable {c : Crypto} {env : Env} {d : Drive}

/-- The answer to a request of ours gives an IKE SA, if its key exchange succeeds. -/
theorem AcceptsIKE.result {m m' : Machine} {ctx : IkeRekeyCtx} {req resp : Payloads} {new : IkeCtx} {skd : Bytes}
    (haccept : AcceptsIKE c m' req resp new) (hasks : Asks c m (.ikeRekey ctx) exchangeCreateChildSA req)
    (hskd : skd.length ≠ 0)
    (hsecret : ∀ ke, Payload.ke ke ∈ resp → ∃ secret, ctx.dh.shared c ke.data = .ok secret) :
    ∃ res, ikeRekeyResult c m.ikeSuites skd ctx resp = .ok res := by
  cases hasks with
  | ikeRekey ctx hni hdh =>
  cases haccept with
  | @intro saP ni kei prop suite rand dh shared nr spii spir newIKE hreq hselect hspi hnew hshared hnr hder =>
      obtain ⟨rfl, rfl, rfl⟩ := ikeRekeyPayloads_message hreq
      obtain ⟨group, rand', hctx⟩ := hdh
      obtain ⟨rfl, hne⟩ := group_of_newDH hctx
      obtain ⟨hgroup, -⟩ := group_of_newDH hnew
      have hgroups : [ctx.dh.group] = answerGroups ctx.dh.group := by simp [answerGroups, hne]
      rw [hgroups] at hselect
      have hmem := mem_of_selectProposal distinctEncr_ikeSuites (fun _ => mem_of_mem_enabledSuites)
        (fun _ => mem_of_mem_enabledSuites) hselect
      have hsel : selectedSuite (buildProposalForSuite prop.number suite (putUint64 spir) [dh.group]) m.ikeSuites =
          some suite := by
        rw [hgroup, hgroups]
        exact (selectedSuite_iff_narrowed distinctEncr_ikeSuites fun _ => mem_of_mem_enabledSuites).mpr
          ⟨hmem, narrowed_build ..⟩
      obtain ⟨secret, hsecret⟩ := hsecret { group := dh.group, data := dh.pub }
        (List.mem_cons_of_mem _ (List.mem_cons_of_mem _ List.mem_cons_self))
      obtain ⟨sa, hsa⟩ := deriveRekeyIKE_exists (c := c) suite.id .initiator ctx.newSPIi spir hskd hni hnr
        (length_shared_ne hsecret)
      refine ⟨(spir, sa), ?_⟩
      rw [ikeRekeyResult, ikeRekeyAnswer, ikeRekeyPayloads_ok hnr (length_pub_ne hnew), ok_bind]
      dsimp only
      rw [hsel]
      dsimp only
      have hspilen : (buildProposalForSuite prop.number suite (putUint64 spir) [dh.group]).spi.length = 8 := rfl
      rw [if_neg (not_not.mpr hspilen), buildProposalForSuite, uint64_putUint64, ok_bind,
        if_neg (not_not.mpr hgroup), hsecret, wrapErr_ok, ok_bind, hsa]
      rfl

/-- The delete of the IKE SA that is superseded can be sent. -/
theorem sendIKEDeleteUnderCurrent_safe (hwf : d.s.ikeSA.WF) (hrand : env.Random) :
    Safe (sendIKEDeleteUnderCurrent c env d).1 := by
  have hlegible : ∀ p ∈ [Payload.delete { protocol := protocolIKE }], Legible p := by
    intro p hp
    cases List.mem_singleton.mp hp
    exact legible_deleteIKE
  obtain ⟨raw, d₁, n, n', henc, -⟩ := encodeIn_ok (c := c) hwf hrand hlegible
    (by simp [Payloads.size, Payload.bodySize, genericHeaderLen]) exchangeInformational
    (ikeRoleBit d.s.ikeSA.role) d.s.messageID
  rw [sendIKEDeleteUnderCurrent, run_session_bind, Proc.bind_of_ok henc, run_noteRequest_bind, run_setSession_bind]
  change Safe (if _ then _ else _)
  split
  · exact Safe.ok _
  · exact Safe.fail _

/-- What the response to an IKE SA exchange of ours leaves. -/
structure RenewalDone (msgID : UInt32) (new : IkeCtx) (d d' : Drive) : Prop where
  lineage : lineage d'.log = (.initiator, msgID) :: Session.lineage d.log
  ike : (d'.view {}).ike = new.keys
  idle : d'.s.pending = none

/-- The turn that takes in the response to an IKE SA exchange of ours. -/
theorem driverStep_renews {p : PendingExchange} {ctx : IkeRekeyCtx} {raw : Bytes} {hdr : Message} {inner : Payloads}
    {newSPIr : UInt64} {newIKE : IKESA} (hwf : d.s.ikeSA.WF) (hrand : env.Random) (hp : d.s.pending = some p)
    (hk : p.kind = .ikeRekey ctx) (hdecode : d.s.decodeIKE c env raw = .ok (hdr, inner, .cur))
    (hexchange : hdr.exchange = exchangeCreateChildSA) (hresp : hdr.flags.isResponse = true)
    (hid : hdr.messageID = p.msgID)
    (hresult : ikeRekeyResult c d.s.enabledIKESuites d.s.ikeSA.skd ctx inner = .ok (newSPIr, newIKE)) :
    ∃ d', driverStep c env (.datagram raw) d = (.ok false, d') ∧
      RenewalDone p.msgID { sa := newIKE, spii := ctx.newSPIi, spir := newSPIr } d d' := by
  have hsafe := sendIKEDeleteUnderCurrent_safe (c := c) (d := { heard env d with
    s := { (heard env d).s with pending := none } }) hwf hrand
  obtain ⟨res, d₁, hdelete, hview⟩ := sendIKEDeleteUnderCurrent_apply c env { heard env d with
    s := { (heard env d).s with pending := none } }
  rw [hdelete] at hsafe
  have hlineage : lineage d₁.log = lineage d.log := by
    rcases hview with hview | ⟨x, raw', -, -, hview⟩
    · exact congrArg (fun m : Machine => lineage m.log) (hview {})
    · exact congrArg (fun m : Machine => lineage m.log) (hview {})
  obtain ⟨d₂, hdone, hview₂⟩ := completeIKERekey_done p.msgID hdelete hsafe hresult
  have hmatching : completeMatchingRekey c env hdr.messageID inner .cur (heard env d) = (.ok (), d₂) := by
    have hp' : (heard env d).s.pending = some p := hp
    simp only [completeMatchingRekey, run_session_bind, hp', hid, ne_eq, not_true, if_false, hk,
      run_setSession_bind]
    exact attempt_of_safe hdone (Safe.ok _)
  refine ⟨d₂, ?_, ?_, ?_, ?_⟩
  · rw [driverStep, handleInbound_decoded hdecode, dispatch, if_neg (by rw [hexchange]; decide), if_pos hexchange,
      if_pos hresp, Proc.bind_of_ok hmatching]
    rfl
  · rw [show d₂.log = _ from congrArg Machine.log (hview₂ {})]
    exact congrArg _ hlineage
  · exact congrArg Machine.ike (hview₂ {})
  · have hpending : (d₂.view {}).pending = none := congrArg Machine.pending (hview₂ {})
    exact Option.map_eq_none_iff.mp hpending

end

/-! ## The round trip -/

section

variable {c : Crypto} {ia ib : UInt32} {a b : Drive} {now : Env}

/-- An endpoint that can accept a request of the other for an IKE SA: no rekey of its own is
under way, it has not answered the request yet, there is a suite in common, and the key
exchange succeeds. -/
structure ReceptiveIKE (c : Crypto) (now : Env) (b : Drive) (msgID : UInt32) (dh : DH)
    (offered : List IkeSuite) : Prop where
  idle : (b.s.pending.any fun p => p.kind.isRekey) = false
  fresh : ¬ b.s.peer.covers msgID
  suite : ∃ suite ∈ offered, suite ∈ b.s.enabledIKESuites
  keys : KeysMeet c (now.rand b.reads) (some dh)
  random : now.Random

/-- The turn in which such an endpoint takes in the request. -/
theorem Allied.respondsIKE (h : Allied c ia ib a b) (hlevel : lineage b.log = (lineage a.log).mirror) {x : IkeCtx}
    {y : Speech} {raw : Bytes} (hsealed : (lineage a.log, x, y, raw) ∈ sealings a.log) {m : Machine}
    {ctx : IkeRekeyCtx} (hasks : Asks c m (.ikeRekey ctx) y.exchange y.inner)
    (hreq : y.flags.isResponse = false) (hb : ReceptiveIKE c now b y.msgID ctx.dh m.ikeSuites) :
    ∃ b₁ dh resp new answer,
      driverStep c now (.datagram raw) b = (.ok false, { b₁ with log := .handled :: b₁.log }) ∧
      RespondsIKE c y.msgID y.inner dh (taken now .cur y.msgID b) b₁ resp new answer ∧
      ∀ ke, Payload.ke ke ∈ resp → ∃ secret, ctx.dh.shared c ke.data = .ok secret := by
  obtain ⟨hdr, inner, hdecode, hexchange, hflags, hid, rfl⟩ := h.decodeIKE hsealed hlevel now
  have hwf : b.s.ikeSA.WF := ((h.mirrors hlevel).sa.withSeq a.s.ikeSA.skSeq b.s.ikeSA.skSeq).right
  obtain ⟨saP, hoffers⟩ := hasks.offersIKE hb.suite
  obtain ⟨z, secret, secret', hz, hsecret, hsecret'⟩ := hb.keys ctx.dh rfl
  obtain ⟨b₁, resp, new, answer, hrun, hresponds⟩ := handleCreateChildSA_acceptsIKE
    (d := taken now .cur y.msgID b) hoffers hb.idle hz hsecret hwf hb.random
  refine ⟨b₁, z, resp, new, answer, ?_, hresponds, fun ke hke => ?_⟩
  · rw [← hid] at hrun
    exact driverStep_createChildSA hdecode (hexchange.trans (hasks.exchange_eq rfl)) (hflags ▸ hreq)
      (hid ▸ hb.fresh) hrun
  · rw [hresponds.ke ke hke]
    exact ⟨secret', hsecret'⟩

/-- The turn in which the endpoint that asked takes in the response, which is one of the IKE SA
that it is still on. -/
theorem Allied.renews (h : Allied c ia ib a b) {g : Lineage} (hlevel : lineage a.log = g.mirror)
    {p : PendingExchange} {ctx : IkeRekeyCtx} (hp : a.s.pending = some p) (hk : p.kind = .ikeRekey ctx)
    {x : IkeCtx} {y : Speech} {raw : Bytes} (hsealed : (g, x, y, raw) ∈ sealings b.log)
    (hexchange : y.exchange = exchangeCreateChildSA) (hresp : y.flags.isResponse = true) (hid : y.msgID = p.msgID)
    {m n : Machine} {req : Payloads} {new : IkeCtx} (hsuites : m.ikeSuites = a.s.enabledIKESuites)
    (hasks : Asks c m (.ikeRekey ctx) exchangeCreateChildSA req) (haccepts : AcceptsIKE c n req y.inner new)
    (hwf : a.s.ikeSA.WF) (hskd : a.s.ikeSA.skd = n.ike.sa.skd)
    (hsecret : ∀ ke, Payload.ke ke ∈ y.inner → ∃ secret, ctx.dh.shared c ke.data = .ok secret)
    (hrand : now.Random) :
    ∃ new' a', driverStep c now (.datagram raw) a = (.ok false, a') ∧ RenewalDone p.msgID new' a a' ∧
      new'.Mirrors new := by
  obtain ⟨hdr, inner, hdecode, hexchange', hflags, hid', rfl⟩ := h.symm.decodeIKE hsealed hlevel now
  have hskd' : a.s.ikeSA.skd.length ≠ 0 := by rw [hwf.skd]; decide
  obtain ⟨⟨newSPIr, newIKE⟩, hresult⟩ := haccepts.result hasks hskd' hsecret
  rw [hsuites] at hresult
  obtain ⟨a', hturn, hdone⟩ := driverStep_renews hwf hrand hp hk hdecode (hexchange'.trans hexchange)
    (hflags ▸ hresp) (hid'.trans hid) hresult
  exact ⟨_, a', hturn, hdone, haccepts.mirrors hskd hasks (fun _ => mem_of_mem_enabledSuites) hresult⟩

variable {s t : Session} {env env' later : Env}

/-- If the request of an endpoint for an IKE SA reaches the other while it is receptive, and
the response reaches the endpoint that asked while it still waits, both are at the two ends of
the new IKE SA, and the rekey is over.  What went before is any run of the two. -/
theorem ike_rekey_completes (hpeers : Peers s t)
    (h : JointRun c (driverStart env { s }).2 (driverStart env' { s := t }).2 a false b false)
    (hfew : FewRequests a.log) (hfew' : FewRequests b.log) (hlevel : lineage b.log = (lineage a.log).mirror)
    (p : PendingExchange) (ctx : IkeRekeyCtx) (hp : a.s.pending = some p) (hk : p.kind = .ikeRekey ctx)
    (x : IkeCtx) (y : Speech) (raw : Bytes) (hsealed : (lineage a.log, x, y, raw) ∈ sealings a.log)
    (hreq : y.flags.isResponse = false) (hid : y.msgID = p.msgID)
    (hb : ReceptiveIKE c now b p.msgID ctx.dh a.s.enabledIKESuites) (hrand : later.Random) :
    ∃ b' answer, driverStep c now (.datagram raw) b = (.ok false, b') ∧
      b'.sent = b.s.frame answer :: b.sent ∧
      ∃ a', driverStep c later (.datagram answer) a = (.ok false, a') ∧ a'.s.pending = none ∧
        lineage a'.log = (.initiator, p.msgID) :: lineage a.log ∧ lineage b'.log = (lineage a'.log).mirror ∧
        a'.s.curIKE.Mirrors b'.s.curIKE ∧
        JointRun c (driverStart env { s }).2 (driverStart env' { s := t }).2 a' false b' false := by
  have hallied := h.allied (hpeers.allied env env') hfew hfew'
  obtain ⟨m, hasks, hcfg⟩ := h.asked hpeers hfew hfew' hp hsealed hreq hid
  rw [hk] at hasks
  have hsuites : m.ikeSuites = a.s.enabledIKESuites :=
    congrArg (fun cfg : Config => enabledSuites cfg.ikeSuites ikeSuites) hcfg
  rw [← hsuites, ← hid] at hb
  obtain ⟨b₁, dh, resp, new, answer, hturn, hresponds, hsecret⟩ := hallied.respondsIKE hlevel hsealed hasks hreq hb
  have hgenuine := hallied.genuine hsealed hlevel now
  have hrun := h.right now (.datagram raw) hgenuine hturn
  generalize hb' : ({ b₁ with log := .handled :: b₁.log } : Drive) = b' at hturn hrun
  have hlog : b'.log = .handled :: .cutover .responder y.msgID new :: .answered .cur y.msgID answer ::
      .sealed .cur b.s.curIKE exchangeCreateChildSA (answerFlags b.s.curIKE) y.msgID resp answer ::
      .handling .cur y.msgID :: b.log := by
    rw [← hb']
    exact congrArg (Event.handled :: ·) hresponds.log
  have hfew'' : FewRequests b'.log := by rw [hlog]; exact hfew'
  have hlevel' : lineage a.log = (lineage b.log).mirror := by rw [hlevel, Lineage.mirror_mirror]
  have hallied' := hallied.symm.turn hgenuine hturn hfew''
  -- the response was encoded before the cutover
  have hanswer : (lineage b.log, b.s.curIKE, ⟨exchangeCreateChildSA, answerFlags b.s.curIKE, y.msgID, resp⟩, answer) ∈
      sealings b'.log := by
    rw [hlog]
    exact List.mem_cons_self
  have hmirror := hallied.mirrors hlevel
  have hexchange := hasks.exchange_eq rfl
  obtain ⟨new', a', hturn', hdone, hnew⟩ := hallied'.symm.renews hlevel' hp hk hanswer rfl
    (isResponse_answerFlags _) hid hsuites (hexchange ▸ hasks) hresponds.accepts
    (hmirror.sa.withSeq a.s.ikeSA.skSeq b.s.ikeSA.skSeq).left hmirror.sa.skd hsecret hrand
  refine ⟨b', answer, hturn, ?_, a', hturn', hdone.idle, hdone.lineage, ?_, ?_, ?_⟩
  · rw [← hb']
    exact hresponds.sent
  · rw [hdone.lineage, hlog, Lineage.mirror_cons, ← hlevel, ← hid]
    rfl
  · have hmirrors : (a'.view {}).ike.Mirrors (b'.view {}).ike := by
      rw [hdone.ike, ← hb']
      exact hresponds.ike ▸ hnew.keys
    exact ⟨hmirrors.sa.withSeq a'.s.ikeSA.skSeq b'.s.ikeSA.skSeq, hmirrors.spii, hmirrors.spir⟩
  · exact hrun.left later (.datagram answer) (hallied'.genuine hanswer hlevel' later) hturn'

end

/-- What the sample endpoint asks for when its IKE SA is due. -/
def sampleRenewalAsked : IkeRekeyCtx where
  newSPIi := 0x0202020202020202
  ni := List.replicate 32 4
  dh := { priv := .x25519 (List.replicate 32 3), pub := List.replicate 32 3 }

theorem receptiveIKE_sample : ReceptiveIKE Crypto.sample (sampleEnv 1001) (sampleStartOf .responder false) 2
    sampleRenewalAsked.dh (sampleAsking false).s.enabledIKESuites where
  idle := by decide +kernel
  fresh := not_and_of_not_left _ (by decide +kernel)
  suite := by decide +kernel
  keys := by
    rintro x ⟨⟩
    exact ⟨_, _, _, rfl, rfl, rfl⟩
  random _ := rfl

/-- The request of the sample endpoint for an IKE SA, and the response to it. -/
theorem ike_rekey_completes_sample : ∃ raw answer b' a',
    driverStep Crypto.sample (sampleEnv 1001) (.datagram raw) (sampleStartOf .responder false) = (.ok false, b') ∧
    driverStep Crypto.sample (sampleEnv 1002) (.datagram answer) (sampleAsking false) = (.ok false, a') ∧
    a'.s.curIKE.Mirrors b'.s.curIKE := by
  have hrun : JointRun Crypto.sample (sampleStartOf .initiator false) (sampleStartOf .responder false)
      (sampleAsking false) false (sampleStartOf .responder false) false :=
    JointRun.refl.ticking (sample_turns false).1
  obtain ⟨p, hp, hasked⟩ : ∃ p, (sampleAsking false).s.pending = some p ∧
      (p.msgID, p.kind) = (2, .ikeRekey sampleRenewalAsked) := Option.map_eq_some_iff.mp (by decide +kernel)
  obtain ⟨hid, hk⟩ := Prod.mk.inj hasked
  obtain ⟨⟨g, x, y, raw⟩, hsealed, hg, hreq, hy⟩ : ∃ q ∈ sealings (sampleAsking false).log,
      q.1 = lineage (sampleAsking false).log ∧ q.2.2.1.flags.isResponse = false ∧ q.2.2.1.msgID = 2 := by
    decide +kernel
  obtain ⟨b', answer, hturn, -, a', hturn', -, -, -, hmirrors, -⟩ :=
    ike_rekey_completes (peers_sampleEnd (sampleDue false)) hrun (fewRequests_of_length (by decide +kernel))
      (fewRequests_of_length (by decide +kernel)) (by decide +kernel) p sampleRenewalAsked hp hk x y raw
      (hg ▸ hsealed) hreq (hy.trans hid.symm) (hid ▸ receptiveIKE_sample)
      (show (sampleEnv 1002).Random from fun _ => rfl)
  exact ⟨raw, answer, b', a', hturn, hturn', hmirrors⟩

end GoIpsec.Session
