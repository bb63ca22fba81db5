import GoIpsec.Session.State

/-!
# Rekeying

The CREATE_CHILD_SA exchanges of an established session: the rekey of the Child SA
and of the IKE SA, each from the side that starts it and from the side that answers
it.

Every answer to a request of the peer is cached under its Message ID before it is
sent.  A Child SA is installed, and an IKE SA is cut over to, before the response is
sent, so a peer that completes the exchange finds us ready.
-/

set_option linter.dupNamespace false

namespace GoIpsec.Session

open Golang Ikemsg Ikesa

def nonceLen : Nat := 32

/-- How long a superseded IKE SA can still be decoded under. -/
def ikeRekeyGrace : Duration := 30 * second

def Session.retransmitBase (s : Session) : Duration :=
  if s.cfg.retransmitBase > 0 then s.cfg.retransmitBase else 2 * second

/-! ## Payloads -/

/-- The full range of addresses, ports and protocols. -/
def fullSelectors (includeV6 : Bool) : List TrafficSelector :=
  [{ tsType := tsIPv4AddrRange, startPort := 0, endPort := 65535, startAddr := [0, 0, 0, 0],
     endAddr := [255, 255, 255, 255] }] ++
  if includeV6 then
    [{ tsType := tsIPv6AddrRange, startPort := 0, endPort := 65535,
       startAddr := List.replicate 16 0, endAddr := List.replicate 16 0xff }]
  else []

/-- The two selector payloads `appendTrafficSelectors` appends. -/
def trafficSelectors (includeV6 : Bool) : Payloads :=
  [.tsi { selectors := fullSelectors includeV6 }, .tsr { selectors := fullSelectors includeV6 }]

/-- The payloads of an exchange that rekeys, the last one of each kind. -/
structure RekeyPayloads where
  sa : Option SAPayload := none
  nonce : Bytes := []
  ke : Option KEPayload := none
  tsi : List TrafficSelector := []
  tsr : List TrafficSelector := []

/-- Collect the payloads of an exchange that rekeys.  With `checkNotify` an error
notify ends the collection. -/
def collectPayloads (checkNotify : Bool) : RekeyPayloads → Payloads → Go RekeyPayloads
  | acc, [] => .ok acc
  | acc, .sa p :: ps => collectPayloads checkNotify { acc with sa := some p } ps
  | acc, .nonce p :: ps => collectPayloads checkNotify { acc with nonce := p.data } ps
  | acc, .ke p :: ps => collectPayloads checkNotify { acc with ke := some p } ps
  | acc, .tsi p :: ps => collectPayloads checkNotify { acc with tsi := p.selectors } ps
  | acc, .tsr p :: ps => collectPayloads checkNotify { acc with tsr := p.selectors } ps
  | acc, .notify n :: ps =>
      let type := n.type
      if checkNotify && n.type.isError then fail s!"session: responder error notify {type}"
      else collectPayloads checkNotify acc ps
  | acc, _ :: ps => collectPayloads checkNotify acc ps

/-- Decode the answer to a Child SA rekey of ours. -/
def childRekeyResponse (enabled : List EspSuite) (inner : Payloads) :
    Go (Proposal × EspSuite × Bytes × Option KEPayload) := do
  let r ← collectPayloads true {} inner
  match r.sa with
  | none => fail "session: Child SA rekey response missing SA payload"
  | some saP =>
      match saP.proposals with
      | [] => fail "session: Child SA rekey response carries no proposal"
      | prop :: _ =>
          let offered := describeProposals saP
          match selectedSuite prop enabled with
          | none => fail s!"session: Child SA rekey response selected an unsupported or ambiguous proposal ({offered})"
          | some suite =>
              if prop.spi.length ≠ 4 then
                fail s!"session: Child SA rekey response selected an unsupported or ambiguous proposal ({offered})"
              else if r.nonce.length = 0 then fail "session: Child SA rekey response missing Nr"
              else return (prop, suite, r.nonce, r.ke)

/-- The payloads of a Child SA rekey request. -/
structure ChildRekeyRequest where
  sa : SAPayload
  ni : Bytes
  ke : Option KEPayload
  tsi : List TrafficSelector
  tsr : List TrafficSelector
deriving Repr, DecidableEq

def childRekeyRequestPayloads (inner : Payloads) : Go ChildRekeyRequest := do
  let r ← collectPayloads false {} inner
  match r.sa with
  | none => fail "session: Child SA rekey request missing SA payload"
  | some sa =>
      if r.nonce.length = 0 then fail "session: Child SA rekey request missing Ni"
      else return { sa, ni := r.nonce, ke := r.ke, tsi := r.tsi, tsr := r.tsr }

def ikeRekeyPayloads (inner : Payloads) : Go (SAPayload × Bytes × KEPayload) := do
  let r ← collectPayloads true {} inner
  match r.sa with
  | none => fail "session: IKE rekey missing SA payload"
  | some saP =>
      match r.ke with
      | none => fail "session: IKE rekey missing Nonce/KE"
      | some ke =>
          if r.nonce.length = 0 ∨ ke.data.length = 0 then fail "session: IKE rekey missing Nonce/KE"
          else return (saP, r.nonce, ke)

/-- Whether the payloads rekey the IKE SA and not a Child SA. -/
def isIKERekey (inner : Payloads) : Bool :=
  inner.any fun
    | .sa sa =>
        match sa.proposals with
        | p :: _ => p.protocol == protocolIKE
        | [] => false
    | _ => false

/-- The request for a new Child SA. -/
def childRekeyRequest (suites : List EspSuite) (requestIPv6 : Bool) (oldInSPI : UInt32)
    (reestablish : Bool) (newSPI ni : Bytes) (dh : Option DH) : Payloads :=
  (if reestablish then []
   else [.notify { protocol := protocolESP, type := notifyRekeySA, spi := putUint32 oldInSPI }]) ++
  ([.sa { proposals := buildProposals newSPI suites (dh.toList.map DH.group) },
    .nonce { data := ni }] ++
  (dh.toList.map (fun d => .ke { group := d.group, data := d.pub }) ++ trafficSelectors requestIPv6))

/-- The answer that accepts a Child SA.  The selectors of the request are echoed, or
ours are given if it has none. -/
def childRekeyAnswer (requestIPv6 : Bool) (number : UInt8) (suite : EspSuite) (newSPI nr : Bytes)
    (dh : Option DH) (req : ChildRekeyRequest) : Payloads :=
  [.sa { proposals := [buildProposalForSuite number suite newSPI (dh.toList.map DH.group)] },
   .nonce { data := nr }] ++
  (dh.toList.map (fun d => .ke { group := d.group, data := d.pub }) ++
  if 0 < req.tsi.length ∧ 0 < req.tsr.length then
    [.tsi { selectors := req.tsi }, .tsr { selectors := req.tsr }]
  else trafficSelectors requestIPv6)

/-- The request for a new IKE SA. -/
def ikeRekeyRequest (suites : List IkeSuite) (spi ni : Bytes) (dh : DH) : Payloads :=
  [.sa { proposals := buildProposals spi suites [dh.group] }, .nonce { data := ni },
   .ke { group := dh.group, data := dh.pub }]

/-- The answer that accepts an IKE SA. -/
def ikeRekeyAnswer (number : UInt8) (suite : IkeSuite) (spi nr : Bytes) (dh : DH) : Payloads :=
  [.sa { proposals := [buildProposalForSuite number suite spi [dh.group]] }, .nonce { data := nr },
   .ke { group := dh.group, data := dh.pub }]

section

variable (c : Crypto) (env : Env)

/-! ## Deadlines -/

/-- A random fraction in units of 1/65536, one half if the random source fails. -/
def randFraction : Drv Nat := do
  match (← randRead env).full 2 with
  | .ok b => return getBE b
  | .error _ => return 32768

/-- The point `lifetime` after `base`, scaled by a random factor from 0.85 to 1.  A
lifetime of 0 gives the zero time. -/
def jitteredDeadline (base : Time) (lifetime : Duration) : Drv Time :=
  if lifetime ≤ 0 then return 0
  else do
    let n ← randFraction env
    return base.add (env.scaling.scaled lifetime n)

def Session.ikeRekeyLifetime (s : Session) : Duration :=
  if s.cfg.ikeRekeyLifetime > 0 then s.cfg.ikeRekeyLifetime
  else if s.cfg.rekeyLifetime > 0 then 4 * s.cfg.rekeyLifetime
  else 0

/-! ## Answers to requests of the peer -/

/-- The flags of a response under the SA of a slot. -/
def responseFlags (slot : Slot) : Drv Flags := do
  match (← session).ctx slot with
  | none => Proc.lift (.error .panic)
  | some ctx => return ikeRoleBit ctx.sa.role ||| flagResponse

/-- The session with a response in the cache of a slot. -/
def Session.record (s : Session) (slot : Slot) (msgID : UInt32) (raw : Bytes) : Session :=
  match slot with
  | .cur => { s with peer := { msgID, set := true, resp := raw } }
  | .old => { s with oldPeer := { msgID, set := true, resp := raw } }

/-- Cache the response to a request. -/
def recordPeerResponse (slot : Slot) (msgID : UInt32) (raw : Bytes) : Drv Unit := do
  setSession fun s => s.record slot msgID raw
  emit (.answered slot msgID raw)

/-- Encode a response, cache it and send it.  A response that does not encode is
given up; a failed send is logged. -/
def answerWith (slot : Slot) (msgID : UInt32) (encode : Drv Bytes) : Drv Unit := do
  let answer : Drv Unit := do
    let raw ← encode.onError (emit .unanswered)
    recordPeerResponse slot msgID raw
    sendDatagram env raw
  let _ ← Proc.attempt answer
  return ()

/-- Answer a CREATE_CHILD_SA request with one notify. -/
def sendNotifyResponse (slot : Slot) (msgID : UInt32) (protocol : ProtocolID)
    (notifyType : NotifyType) (data : Bytes) : Drv Unit := do
  let flags ← responseFlags slot
  answerWith env slot msgID (encodeIn c env slot exchangeCreateChildSA flags msgID
    [.notify { protocol, type := notifyType, data }])

def sendTemporaryFailure (slot : Slot) (msgID : UInt32) : Drv Unit :=
  sendNotifyResponse c env slot msgID protocolNone notifyTemporaryFailure []

/-- Name the group we prefer. -/
def sendInvalidKEPayload (slot : Slot) (msgID : UInt32) : Drv Unit :=
  sendNotifyResponse c env slot msgID protocolNone notifyInvalidKEPayload (putUint16 dhX25519)

/-! ## Requests of ours -/

/-- Log a request of ours. -/
def noteRequest (msgID : UInt32) (raw : Bytes) : Drv Unit := do
  let s ← session
  emit (.requested msgID raw s.pending.isNone)

/-- Count a request of ours and make it the pending exchange. -/
def setPending (kind : ExchangeKind) (msgID : UInt32) (raw : Bytes) (base : Duration)
    (fast : Bool) : Drv Unit := do
  noteRequest msgID raw
  setSession fun s => { s with
    messageID := s.messageID + 1
    pending := some { kind, msgID, raw, attempts := 1,
                      nextRetransmit := (env.clock .request).add base, fast } }
  match kind with
  | .childRekey ctx => emit (.started ctx.reestablish)
  | _ => return ()

/-- Send a request of ours under the current SA.  `encode` gets its flags and its
Message ID. -/
def request (kind : ExchangeKind) (base : Duration) (fast : Bool)
    (encode : Flags → UInt32 → Drv Bytes) : Drv Unit := do
  let s ← session
  let raw ← encode (ikeRoleBit s.ikeSA.role) s.messageID
  setPending env kind s.messageID raw base fast
  sendDatagram env raw

/-- The group of a Child SA exchange of ours. -/
def Session.childRekeyGroup (s : Session) : UInt16 :=
  if s.childPFSGroup ≠ 0 then s.childPFSGroup
  else if s.ikeDHGroup ≠ 0 then s.ikeDHGroup
  else dhX25519

/-- A key pair if the exchange is to have perfect forward secrecy. -/
def newChildDH : Drv (Option DH) := do
  let s ← session
  if s.childPFS then return some (← newDHFor c env s.childRekeyGroup) else return none

/-- Start a CREATE_CHILD_SA exchange for the Child SA: a rekey of the live one, or a
fresh one in place of one the peer has deleted. -/
def initiateChildRekey (reestablish : Bool) : Drv Unit := do
  match (← session).child with
  | none => raise "session: no Child SA to rekey"
  | some child =>
      let newSPI ← randBytes env 4
      let newInSPI ← Proc.lift (uint32 newSPI)
      let ni ← randBytes env nonceLen
      let dh ← newChildDH c env
      let s ← session
      request env (.childRekey { newInSPI, oldInSPI := child.initiatorSPI, ni, reestablish, dh })
        s.retransmitBase false fun flags msgID =>
          encodeSK c env exchangeCreateChildSA flags msgID
            (childRekeyRequest s.enabledESPSuites s.cfg.requestIPv6 child.initiatorSPI reestablish
              newSPI ni dh)

/-- Start a CREATE_CHILD_SA exchange for the IKE SA. -/
def initiateIKERekey : Drv Unit := do
  let newSPIi ← randUint64 env
  let dh ← newDHFor c env (← session).ikeDHGroup
  let ni ← randBytes env nonceLen
  let s ← session
  request env (.ikeRekey { newSPIi, ni, dh }) s.retransmitBase false fun flags msgID =>
    encodeSK c env exchangeCreateChildSA flags msgID
      (ikeRekeyRequest s.enabledIKESuites (putUint64 newSPIi) ni dh)

/-- Delete the Child SA with the given inbound SPI. -/
def sendChildDelete (inSPI : UInt32) : Drv Unit := do
  request env .delete (← session).retransmitBase false fun flags msgID =>
    encodeSK c env exchangeInformational flags msgID
      [.delete { protocol := protocolESP, spis := [putUint32 inSPI] }]

/-- Delete the IKE SA that is about to be superseded, under itself. -/
def sendIKEDeleteUnderCurrent : Drv Unit := do
  let s ← session
  let raw ← encodeSK c env exchangeInformational (ikeRoleBit s.ikeSA.role) s.messageID
    [.delete { protocol := protocolIKE }]
  noteRequest s.messageID raw
  setSession fun s => { s with
    messageID := s.messageID + 1
    oldIKEDelete := some { kind := .delete, msgID := s.messageID, raw, attempts := 1,
                           nextRetransmit := (env.clock .request).add s.retransmitBase } }
  sendDatagram env raw

/-! ## Installation and cutover -/

/-- Hand a Child SA to the data plane. -/
def installChildSA (role : Role) (slot : Slot) (msgID : UInt32) (u : ChildSAUpdate) : Drv Unit := do
  if (← session).dataPlane then emit (.install role slot msgID u) else Proc.lift (.error .panic)

/-- Make `newIKE` the current IKE SA and retire the old one for the grace period. -/
def swapIKE (newIKE : IKESA) (spii spir : UInt64) : Drv Unit := do
  setSession fun s => { s with
    oldIKE := s.ctx .cur
    oldIKEUntil := (env.clock .cutover).add ikeRekeyGrace
    oldPeer := s.peer
    peer := {}
    ikeSA := newIKE
    initiatorSPI := spii
    responderSPI := spir
    messageID := 0
    ikeInstalledAt := env.clock .cutover }
  let s ← session
  let deadline ← jitteredDeadline env s.ikeInstalledAt s.ikeRekeyLifetime
  setSession fun s => { s with nextIKERekey := deadline, pending := none }

/-! ## Child SA rekey -/

/-- The keys of a Child SA we asked for.  A responder that returns a key exchange we
did not offer, or selects a group and returns none, is refused. -/
def childRekeyKeys (ike : IKESA) (ctx : ChildRekeyCtx) (prop : Proposal) (suite : EspSuite)
    (nr : Bytes) (ke : Option KEPayload) : Go ChildKeys :=
  match ctx.dh, ke with
  | some dh, some ke =>
      let (keGroup, group) := (ke.group, dh.group)
      if ke.group ≠ dh.group then
        fail s!"session: Child SA rekey response KE group {keGroup} != offered group {group}"
      else do
        let shared ← wrapErr "session: Child SA rekey DH: " (dh.shared c ke.data)
        ike.deriveChildKeys c shared ctx.ni nr suite.encrKeyLen suite.integKeyLen
  | none, some _ => fail "session: Child SA rekey response carried an unsolicited KE payload"
  | dh, none =>
      if dh.isSome ∧ selectedDHGroup prop ≠ 0 then
        fail "session: Child SA rekey response selected a DH group but omitted the KE payload"
      else ike.deriveChildKeys c [] ctx.ni nr suite.encrKeyLen suite.integKeyLen

/-- What the response to a Child SA exchange of ours gives: the SPI of the peer, the
suite and the keys. -/
def childRekeyResult (enabled : List EspSuite) (ike : IKESA) (ctx : ChildRekeyCtx)
    (inner : Payloads) : Go (UInt32 × EspSuite × ChildKeys) := do
  let (prop, suite, nr, ke) ← childRekeyResponse enabled inner
  let respSPI ← uint32 prop.spi
  let keys ← childRekeyKeys c ike ctx prop suite nr ke
  return (respSPI, suite, keys)

/-- Finish a Child SA exchange of ours. -/
def completeChildRekey (inner : Payloads) (msgID : UInt32) (ctx : ChildRekeyCtx) : Drv Unit := do
  let s ← session
  let (respSPI, suite, keys) ←
    Proc.lift (childRekeyResult c s.enabledESPSuites s.ikeSA ctx inner)
  -- we are the initiator of the exchange and send in its direction
  installChildSA .initiator .cur msgID
    { newInSPI := ctx.newInSPI, newOutSPI := respSPI, oldInSPI := ctx.oldInSPI, suite := suite.id,
      outEncr := keys.encrIR, outInteg := keys.integIR,
      inEncr := keys.encrRI, inInteg := keys.integRI }
  setSession fun s => { s with
    child := some { initiatorSPI := ctx.newInSPI, responderSPI := respSPI, suite := suite.id, keys }
    childInstalledAt := env.clock .install
    childReestablish := false
    nextChildReestablish := 0 }
  if ctx.reestablish then return ()
  else if ctx.oldInSPI = ctx.newInSPI then return ()
  else sendChildDelete c env ctx.oldInSPI

/-- The key exchange of a request that carries one, with the secret.  A failure is
answered. -/
def childRekeyPFS (slot : Slot) (msgID : UInt32) (ke : Option KEPayload) :
    Drv (Option (DH × Bytes)) :=
  match ke with
  | none => return none
  | some ke => do
      let dh ← (newDHFor c env ke.group).onError (sendTemporaryFailure c env slot msgID)
      let shared ← (Proc.lift (wrapErr "session: Child SA rekey DH: " (dh.shared c ke.data))).onError
        (sendNotifyResponse c env slot msgID protocolNone notifyInvalidSyntax [])
      return some (dh, shared)

/-- Install a Child SA of the peer before the response is cached and sent.  A key
exchange of the peer makes us offer one in its group from now on. -/
def installAnswered (slot : Slot) (msgID : UInt32) (pfs : Option DH) (u : ChildSAUpdate)
    (child : ChildSA) (raw : Bytes) : Drv Unit := do
  setSession fun s =>
    match pfs with
    | none => s
    | some dh => { s with childPFS := true, childPFSGroup := dh.group }
  installChildSA .responder slot msgID u
  setSession fun s => { s with child := some child, childInstalledAt := env.clock .install }
  let s ← session
  let deadline ← jitteredDeadline env s.childInstalledAt s.cfg.rekeyLifetime
  setSession fun s => { s with nextChildRekey := deadline }
  recordPeerResponse slot msgID raw
  sendDatagram env raw

/-- Accept a Child SA of the peer under the proposal and the suite chosen. -/
def acceptChildRekey (slot : Slot) (msgID : UInt32) (child : ChildSA) (req : ChildRekeyRequest)
    (prop : Proposal) (suite : EspSuite) : Drv Unit := do
  let serverNewSPI ← Proc.lift (uint32 prop.spi)
  let pfs ← childRekeyPFS c env slot msgID req.ke
  let newSPI ← (randBytes env 4).onError (sendTemporaryFailure c env slot msgID)
  let newInSPI ← Proc.lift (uint32 newSPI)
  let nr ← (randBytes env nonceLen).onError (sendTemporaryFailure c env slot msgID)
  let s ← session
  let flags ← responseFlags slot
  let resp := childRekeyAnswer s.cfg.requestIPv6 prop.number suite newSPI nr (pfs.map Prod.fst) req
  let raw ← (encodeIn c env slot exchangeCreateChildSA flags msgID resp).onError (emit .unanswered)
  match s.ctx slot with
  | none => Proc.lift (.error .panic)
  | some ctx =>
      -- keyed from the SA that carried the request
      let keys ← Proc.lift (ctx.sa.deriveChildKeys c ((pfs.map Prod.snd).getD []) req.ni nr
        suite.encrKeyLen suite.integKeyLen)
      -- the peer is the initiator of the exchange, and we send against its direction
      installAnswered env slot msgID (pfs.map Prod.fst)
        { newInSPI, newOutSPI := serverNewSPI, oldInSPI := child.initiatorSPI, suite := suite.id,
          outEncr := keys.encrRI, outInteg := keys.integRI,
          inEncr := keys.encrIR, inInteg := keys.integIR }
        { initiatorSPI := newInSPI, responderSPI := serverNewSPI, suite := suite.id, keys } raw

/-- Answer a Child SA request of the peer. -/
def handleChildRekeyRequest (msgID : UInt32) (inner : Payloads) (slot : Slot) : Drv Unit := do
  let s ← session
  match s.child with
  | none => do
      sendNotifyResponse c env slot msgID protocolESP notifyChildSANotFound []
      raise "session: rekey request but no Child SA"
  | some child =>
      match childRekeyRequestPayloads inner with
      | .error e => do
          sendNotifyResponse c env slot msgID protocolESP notifyNoProposalChosen []
          Proc.lift (.error e)
      | .ok req =>
          if req.ke.any fun ke => !supportedDHGroup ke.group then
            sendInvalidKEPayload c env slot msgID
          else
            let requireGroup := (req.ke.map KEPayload.group).getD 0
            match selectProposal req.sa s.enabledESPSuites requireGroup with
            | some (prop, suite) => acceptChildRekey c env slot msgID child req prop suite
            | none =>
                if requireGroup ≠ 0 ∧ (selectProposal req.sa s.enabledESPSuites 0).isSome then
                  sendInvalidKEPayload c env slot msgID
                else do
                  let offered := describeProposals req.sa
                  sendNotifyResponse c env slot msgID protocolESP notifyNoProposalChosen []
                  raise s!"session: no offered ESP proposal matches our suites ({offered})"

/-! ## IKE SA rekey -/

/-- What the response to an IKE SA exchange of ours gives: the SPI of the peer and
the new SA. -/
def ikeRekeyResult (enabled : List IkeSuite) (skd : Bytes) (ctx : IkeRekeyCtx) (inner : Payloads) :
    Go (UInt64 × IKESA) := do
  let (saP, nr, ker) ← ikeRekeyPayloads inner
  match saP.proposals with
  | [] => fail "session: IKE rekey response carries no proposal"
  | prop :: _ =>
      let offered := describeProposals saP
      match selectedSuite prop enabled with
      | none => fail s!"session: IKE rekey response selected an unsupported or ambiguous proposal ({offered})"
      | some suite =>
          if prop.spi.length ≠ 8 then
            fail s!"session: IKE rekey response selected an unsupported or ambiguous proposal ({offered})"
          else
            let newSPIr ← uint64 prop.spi
            let (kerGroup, group) := (ker.group, ctx.dh.group)
            if ker.group ≠ ctx.dh.group then
              fail s!"session: IKE rekey response KE group {kerGroup} != offered group {group}"
            else
              let shared ← wrapErr "session: IKE rekey DH: " (ctx.dh.shared c ker.data)
              let newIKE ← deriveRekeyIKE c suite.id skd .initiator ctx.newSPIi newSPIr ctx.ni nr
                shared
              return (newSPIr, newIKE)

/-- Finish an IKE SA exchange of ours: delete the old SA under itself, then cut over. -/
def completeIKERekey (inner : Payloads) (msgID : UInt32) (ctx : IkeRekeyCtx) : Drv Unit := do
  let s ← session
  let (newSPIr, newIKE) ← Proc.lift (ikeRekeyResult c s.enabledIKESuites s.ikeSA.skd ctx inner)
  let _ ← Proc.attempt (sendIKEDeleteUnderCurrent c env)
  emit (.cutover .initiator msgID { sa := newIKE, spii := ctx.newSPIi, spir := newSPIr })
  swapIKE env newIKE ctx.newSPIi newSPIr

/-- Accept an IKE SA of the peer under the proposal and the suite chosen: cache the
response, cut over, then send. -/
def acceptIKERekey (msgID : UInt32) (ni : Bytes) (kei : KEPayload) (prop : Proposal)
    (suite : IkeSuite) : Drv Unit := do
  let serverNewSPIi ← Proc.lift (uint64 prop.spi)
  let dh ← (newDHFor c env kei.group).onError (sendTemporaryFailure c env .cur msgID)
  let shared ← (Proc.lift (wrapErr "session: IKE rekey DH: " (dh.shared c kei.data))).onError
    (sendNotifyResponse c env .cur msgID protocolNone notifyInvalidSyntax [])
  let newSPIr ← (randUint64 env).onError (sendTemporaryFailure c env .cur msgID)
  let nr ← (randBytes env nonceLen).onError (sendTemporaryFailure c env .cur msgID)
  let s ← session
  let newIKE ← (Proc.lift (deriveRekeyIKE c suite.id s.ikeSA.skd .responder serverNewSPIi newSPIr ni
    nr shared)).onError (sendTemporaryFailure c env .cur msgID)
  let flags ← responseFlags .cur
  let resp := ikeRekeyAnswer prop.number suite (putUint64 newSPIr) nr dh
  let raw ← (encodeIn c env .cur exchangeCreateChildSA flags msgID resp).onError
    (sendTemporaryFailure c env .cur msgID)
  recordPeerResponse .cur msgID raw
  emit (.cutover .responder msgID { sa := newIKE, spii := serverNewSPIi, spir := newSPIr })
  swapIKE env newIKE serverNewSPIi newSPIr
  setSession fun s => { s with ikeDHGroup := dh.group }
  sendDatagram env raw

/-- Answer an IKE SA request of the peer, which came under the current SA. -/
def handleIKERekeyRequest (msgID : UInt32) (inner : Payloads) : Drv Unit := do
  let s ← session
  match ikeRekeyPayloads inner with
  | .error e => do
      sendNotifyResponse c env .cur msgID protocolNone notifyNoProposalChosen []
      Proc.lift (.error e)
  | .ok (saP, ni, kei) =>
      if !supportedDHGroup kei.group then sendInvalidKEPayload c env .cur msgID
      else
        match selectProposal saP s.enabledIKESuites kei.group with
        | some (prop, suite) => acceptIKERekey c env msgID ni kei prop suite
        | none =>
            if (selectProposal saP s.enabledIKESuites 0).isSome then
              sendInvalidKEPayload c env .cur msgID
            else do
              let offered := describeProposals saP
              sendNotifyResponse c env .cur msgID protocolNone notifyNoProposalChosen []
              raise s!"session: no offered IKE proposal matches our suites ({offered})"

/-! ## Responses do not crash -/

omit env

theorem collectPayloads_safe (checkNotify : Bool) :
    ∀ (acc : RekeyPayloads) (ps : Payloads), Safe (collectPayloads checkNotify acc ps)
  | acc, [] => Safe.ok acc
  | acc, p :: ps => by
      cases p <;> unfold collectPayloads
      case notify n =>
        dsimp only
        split
        · exact Safe.fail _
        · exact collectPayloads_safe checkNotify _ ps
      all_goals exact collectPayloads_safe checkNotify _ ps

/-- What a response to a Child SA exchange has when it is accepted. -/
theorem childRekeyResponse_eq_ok {enabled : List EspSuite} {inner : Payloads} {prop : Proposal}
    {suite : EspSuite} {nr : Bytes} {ke : Option KEPayload}
    (h : childRekeyResponse enabled inner = .ok (prop, suite, nr, ke)) :
    ∃ acc saP rest, collectPayloads true {} inner = .ok acc ∧ acc.sa = some saP ∧
      saP.proposals = prop :: rest ∧ selectedSuite prop enabled = some suite ∧
      prop.spi.length = 4 ∧ nr.length ≠ 0 ∧ acc.nonce = nr ∧ acc.ke = ke := by
  unfold childRekeyResponse at h
  rw [bind_eq_ok] at h
  obtain ⟨acc, hacc, h⟩ := h
  cases hsa : acc.sa with
  | none =>
      rw [hsa] at h
      cases h
  | some saP =>
      rw [hsa] at h
      cases hprops : saP.proposals with
      | nil =>
          simp only [hprops] at h
          cases h
      | cons prop' rest =>
          simp only [hprops] at h
          cases hsuite : selectedSuite prop' enabled with
          | none =>
              simp only [hsuite] at h
              cases h
          | some suite' =>
              simp only [hsuite] at h
              split at h
              · cases h
              · rename_i hspi
                split at h
                · cases h
                · rename_i hnr
                  cases h
                  exact ⟨acc, saP, rest, hacc, hsa, hprops, hsuite, by simpa using hspi, hnr, rfl, rfl⟩

end

end GoIpsec.Session
