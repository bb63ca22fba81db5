import GoIpsec.Session.Handshake

/-!
# IKE_AUTH

The authentication of both ends and the first Child SA.  With a pre-shared key it is
one exchange.  With EAP it is one exchange for the certificate of the responder, one
for each EAP request, and one for the AUTH payloads keyed by what EAP has produced.

Both ways end in `handleFinalAuthResponse`, which is the only place where the session
becomes established.
-/

set_option linter.dupNamespace false

namespace GoIpsec.Session

open Golang Ikemsg Ikesa

/-- The bound on the number of EAP requests. -/
def maxEAPRounds : Nat := 32

def idTypeIPv4 : UInt8 := 1
def idTypeFQDN : UInt8 := 2
def idTypeRFC822 : UInt8 := 3
def idTypeIPv6 : UInt8 := 5
def idTypeDERASN1DN : UInt8 := 9

def configRequest : UInt8 := 1
def configAttrInternalIP4Address : UInt16 := 1
def configAttrInternalIP4Netmask : UInt16 := 2
def configAttrInternalIP4DNS : UInt16 := 3
def configAttrInternalIP6Address : UInt16 := 8
def configAttrInternalIP6DNS : UInt16 := 10

/-! ## Payloads -/

/-- The payload `buildCPRequest` appends. -/
def cpRequest (requestIPv6 : Bool) : Payload :=
  .cp { cfgType := configRequest
        attributes := [{ type := configAttrInternalIP4Address },
                       { type := configAttrInternalIP4Netmask },
                       { type := configAttrInternalIP4DNS }] ++
          if requestIPv6 then
            [{ type := configAttrInternalIP6Address }, { type := configAttrInternalIP6DNS }]
          else [] }

/-- An address of an INTERNAL_IP6_ADDRESS attribute.  Without a prefix octet the prefix
is /64. -/
def ip6Prefix (value : Bytes) : Option (Bytes × Nat) :=
  if value.length = 16 then some (value, 64)
  else if value.length = 17 then
    let plen := (value.getD 16 0).toNat
    if plen ≤ 128 then some (value.take 16, plen) else none
  else none

/-- One attribute of the reply.  A value of the wrong length is skipped. -/
def parseCPAttr (a : Assigned) (attr : ConfigAttr) : Assigned :=
  let v := attr.value
  if attr.type = configAttrInternalIP4Address then
    if v.length = 4 then { a with ip := some v } else a
  else if attr.type = configAttrInternalIP4Netmask then
    if v.length = 4 then { a with netmask := some v } else a
  else if attr.type = configAttrInternalIP4DNS then
    if v.length = 4 then { a with dns := a.dns ++ [v] } else a
  else if attr.type = configAttrInternalIP6Address then { a with ip6 := (ip6Prefix v).or a.ip6 }
  else if attr.type = configAttrInternalIP6DNS then
    if v.length = 16 then { a with dns6 := a.dns6 ++ [v] } else a
  else a

def parseCPReply (cp : ConfigPayload) : Assigned := cp.attributes.foldl parseCPAttr {}

def notifyError (n : NotifyPayload) : Go Unit :=
  let type := n.type
  if n.type.isError then fail s!"session: responder error notify {type}" else .ok ()

/-- The error of a payload that is a notify. -/
def payloadError : Payload → Go Unit
  | .notify n => notifyError n
  | _ => .ok ()

def firstNotifyError : Payloads → Go Unit
  | [] => .ok ()
  | p :: ps => do
      payloadError p
      firstNotifyError ps

/-- The packet in the first EAP payload. -/
def firstEAP : Payloads → Go (Option Eap.Packet)
  | [] => .ok none
  | .eap e :: _ => some <$> wrapErr "session: malformed EAP payload: " (Eap.parse e.data)
  | _ :: ps => firstEAP ps

/-- The payloads of an IKE_AUTH response, the last one of each kind. -/
structure AuthResponse where
  idr : Option IDrPayload := none
  auth : Option AuthPayload := none
  certsDER : List Bytes := []
  sa : Option SAPayload := none
  cp : Option ConfigPayload := none

def AuthResponse.add (acc : AuthResponse) : Payload → AuthResponse
  | .idr p => { acc with idr := some p }
  | .auth p => { acc with auth := some p }
  | .cert p => { acc with certsDER := acc.certsDER ++ [p.data] }
  | .sa p => { acc with sa := some p }
  | .cp p => { acc with cp := some p }
  | _ => acc

/-- Collect the payloads of an IKE_AUTH response.  An error notify ends the
collection. -/
def collectAuth : AuthResponse → Payloads → Go AuthResponse
  | acc, [] => .ok acc
  | acc, p :: ps => do
      payloadError p
      collectAuth (acc.add p) ps

/-! ## Signed octets -/

namespace Handshake

variable (c : Crypto) (s : Handshake)

/-- `RealMessage1 | Nr | prf(SK_pi, IDi')`. -/
def initiatorSignedOctets (ike : IKESA) : Bytes :=
  Auth.signedOctets (prf c) s.initSAInitReq s.nonceR
    (marshalIDBody s.creds.localID.type s.creds.localID.data) ike.skpi

/-- `RealMessage2 | Ni | prf(SK_pr, IDr')`. -/
def responderSignedOctets (ike : IKESA) (id : WireID) : Bytes :=
  Auth.signedOctets (prf c) s.initSAInitRsp s.nonceI (marshalIDBody id.type id.data) ike.skpr

def computeInitiatorAuth (ike : IKESA) (secret : Bytes) : Bytes :=
  Auth.sharedSecretAuth (prf c) secret (s.initiatorSignedOctets c ike)

/-- The name the certificate of the responder has to carry.  A configured identity that
no certificate can be matched with is marked, and is not the same as none. -/
def peerName : Auth.PeerName :=
  let id := s.creds.remoteID
  if id.type = idTypeFQDN then { dns := id.data }
  else if id.type = idTypeRFC822 then { email := id.data }
  else if (id.type = idTypeIPv4 ∨ id.type = idTypeIPv6) ∧
      (id.data.length = 4 ∨ id.data.length = 16) then { ip := some id.data }
  else if id.type = idTypeDERASN1DN then { dn := id.data }
  else if id.type ≠ 0 ∨ id.data.length ≠ 0 then { unverifiable := true }
  else {}

/-- The proposals of the first Child SA advertise both groups, although it has no key
exchange of its own. -/
def childProposals (spi : Bytes) : SAPayload :=
  { proposals := buildProposals spi s.enabledESPSuites preferredDHGroups }

/-- The ESP proposal of the responder: one enabled suite, and a SPI of four octets. -/
def selectChild (sa : Option SAPayload) : Go (Proposal × EspSuite) :=
  match sa with
  | none => fail "session: final IKE_AUTH missing the responder's ESP proposal"
  | some saP =>
      match saP.proposals with
      | [] => fail "session: final IKE_AUTH missing the responder's ESP proposal"
      | prop :: _ =>
          let offered := describeProposals saP
          let spiLen := prop.spi.length
          match selectedSuite prop s.enabledESPSuites with
          | none =>
              fail s!"session: responder selected an unsupported or ambiguous ESP proposal ({offered})"
          | some suite =>
              if prop.spi.length ≠ 4 then
                fail s!"session: responder selected an ESP proposal with invalid SPI length {spiLen} ({offered})"
              else return (prop, suite)

/-- The Child SA of the last response, if its AUTH payload is right. -/
def finalChild (authP : AuthPayload) (sa : Option SAPayload) (secret : Bytes) : Go ChildSA :=
  if s.remoteIDr.type = 0 ∧ s.remoteIDr.data.length = 0 then
    fail "session: IKE_AUTH response missing IDr"
  else
    match s.ikeSA with
    | none => .error .panic
    | some ike =>
        let want := Auth.sharedSecretAuth (prf c) secret (s.responderSignedOctets c ike s.remoteIDr)
        if authP.method ≠ Auth.methodSharedKeyMIC ∨ authP.data ≠ want then
          fail "session: responder AUTH verification failed"
        else do
          let (prop, suite) ← s.selectChild sa
          let responderSPI ← uint32 prop.spi
          let keys ← ike.deriveChildKeys c [] s.nonceI s.nonceR suite.encrKeyLen suite.integKeyLen
          return { initiatorSPI := s.childInitiatorSPI, responderSPI, suite := suite.id, keys }

end Handshake

namespace Dial

variable (c : Crypto) (w : World)

/-- Generate the SPI of the first Child SA and return it for the proposal. -/
def allocChildSPI : Dial Bytes := do
  let spiBuf ← randBytes w 4
  let spi ← Proc.lift (uint32 spiBuf)
  setSession fun s => { s with childInitiatorSPI := spi }
  return spiBuf

/-! ## Responses -/

/-- Check the certificate and the AUTH payload of the responder, and return the first EAP
request. -/
def handleAuthResponse (payloads : Payloads) : Dial Eap.Packet := do
  let r ← Proc.lift (collectAuth {} payloads)
  match r.idr with
  | none => Proc.raise "session: IKE_AUTH response missing IDr"
  | some idr =>
      let id : WireID := { type := idr.idType, data := idr.data }
      setSession fun s => { s with remoteIDr := id }
      let s ← session
      let leaf ← Proc.lift (Auth.verifyServerChain w.x509 r.certsDER s.peerName)
      match r.auth with
      | none => Proc.raise "session: IKE_AUTH response missing responder AUTH"
      | some authP =>
          let ike ← deref Handshake.ikeSA
          Proc.lift (wrapErr "session: responder certificate AUTH invalid: "
            (Auth.verifyCertAuth w.x509 authP.method authP.data (s.responderSignedOctets c ike id)
              leaf))
          match ← Proc.lift (firstEAP payloads) with
          | none => Proc.raise "session: IKE_AUTH response missing EAP payload"
          | some req => return req

/-- An IDr replaces the identity that is known so far. -/
def takeIDr : Option IDrPayload → Dial Unit
  | none => pure ()
  | some idr => setSession fun s => { s with remoteIDr := { type := idr.idType, data := idr.data } }

/-- Check the AUTH payload that is keyed by a secret, and take the Child SA and the
configuration. -/
def handleFinalAuthResponse (payloads : Payloads) (secret : Bytes) : Dial Unit := do
  let r ← Proc.lift (collectAuth {} payloads)
  match r.auth with
  | none => Proc.raise "session: final IKE_AUTH missing responder AUTH"
  | some authP =>
      takeIDr r.idr
      let child ← Proc.lift ((← session).finalChild c authP r.sa secret)
      setSession fun s => { s with
        child := some child
        assigned := (r.cp.map parseCPReply).getD s.assigned
        established := true }

/-! ## The two modes -/

/-- The payloads that the first request has in both modes, behind the identity and AUTH. -/
def firstRequest (s : Handshake) (spi : Bytes) (auth : Payloads) : Payloads :=
  [.idi { idType := s.creds.localID.type, data := s.creds.localID.data }] ++ (auth ++
    ([.sa (s.childProposals spi)] ++ (trafficSelectors s.cfg.requestIPv6 ++
      [cpRequest s.cfg.requestIPv6])))

/-- An exchange with the next Message ID. -/
def exchangeNext (what : String) (inner : Payloads) : Dial Payloads := do
  let resp ← Proc.wrap what (exchangeSK c w exchangeIKEAuth (← session).messageID inner)
  setSession fun s => { s with messageID := s.messageID + 1 }
  return resp

def ikeAuthPSK : Dial Unit := do
  let spi ← allocChildSPI w
  let s ← session
  let ike ← deref Handshake.ikeSA
  let auth : Payload := .auth { method := Auth.methodSharedKeyMIC
                                data := s.computeInitiatorAuth c ike s.creds.psk }
  let resp ← exchangeNext c w "session: IKE_AUTH (PSK): " (firstRequest s spi [auth])
  Proc.lift (firstNotifyError resp)
  handleFinalAuthResponse c resp s.creds.psk

/-- The response to an EAP request, and the conversation after it. -/
def buildEAPResponse (rand : RandRead) (req : Eap.Packet) : Proc Eap.MSCHAPv2 Eap.Packet :=
  let type := req.type
  if req.type = Eap.typeIdentity then do return (← Proc.get).identityResponse req
  else if req.type = Eap.typeMSCHAPv2 then
    match req.data with
    | [] => Proc.raise "session: empty MSCHAPv2 request"
    | op :: _ =>
        if op = Eap.opChallenge then Eap.handleChallenge w.eap rand req
        else if op = Eap.opSuccess then Eap.handleSuccess w.eap req
        else if op = Eap.opFailure then Proc.raise "session: server reported MSCHAPv2 failure"
        else Proc.raise s!"session: unexpected MSCHAPv2 opcode {op}"
  else if req.type = Eap.typeNotification then
    return { code := Eap.codeResponse, identifier := req.identifier, type := Eap.typeNotification }
  else Proc.raise s!"session: unsupported EAP request type {type}"

/-- Answer an EAP request.  An error ends the conversation, so its state is dropped. -/
def answerEAP (m : Eap.MSCHAPv2) (req : Eap.Packet) : Dial (Eap.Packet × Eap.MSCHAPv2) := do
  let rand ← randRead w
  let (resp, m') := buildEAPResponse w rand req m
  let resp ← Proc.lift resp
  note (.answered req m')
  return (resp, m')

/-- The EAP conversation, from a request on, until the server reports its end.  The
number is that of the rounds that are left. -/
def eapRounds : Nat → Eap.MSCHAPv2 → Eap.Packet → Dial Eap.MSCHAPv2
  | 0, _, _ => Proc.raise s!"session: EAP did not converge within {maxEAPRounds} rounds"
  | n + 1, m, eapReq =>
      if eapReq.code = Eap.codeSuccess then
        let (phh, ntResp) := m.mskInputs
        if phh.length > 0 ∧ ntResp.length > 0 ∧ m.verified = false then
          Proc.raise "session: server sent EAP-Success without verifying MSCHAPv2 AuthenticatorResponse"
        else pure m
      else if eapReq.code = Eap.codeFailure then
        Proc.raise "session: EAP authentication failed (server sent EAP-Failure)"
      else do
        let (eapResp, m') ← answerEAP w m eapReq
        let resp ← exchangeNext c w "session: IKE_AUTH EAP exchange: "
          [.eap { data := eapResp.marshal }]
        Proc.lift (firstNotifyError resp)
        match ← Proc.lift (firstEAP resp) with
        | none => Proc.raise "session: expected EAP payload in IKE_AUTH response"
        | some next => eapRounds n m' next

def ikeAuthEAP : Dial Unit := do
  let spi ← allocChildSPI w
  let s ← session
  let resp ← exchangeNext c w "session: IKE_AUTH message 3: " (firstRequest s spi [])
  let eapReq ← handleAuthResponse c w resp
  let m ← eapRounds c w maxEAPRounds (Eap.newMSCHAPv2 s.creds.eapUser s.creds.eapPass) eapReq
  let msk ← Proc.lift (wrapErr "session: derive MSK: "
    (Eap.deriveMSK w.eap m.passwordHashHash m.ntResponse))
  note (.derived m msk)
  let s ← session
  let ike ← deref Handshake.ikeSA
  let auth : Payload := .auth { method := Auth.methodSharedKeyMIC
                                data := s.computeInitiatorAuth c ike msk }
  let finalResp ← exchangeNext c w "session: IKE_AUTH final: " [auth]
  handleFinalAuthResponse c finalResp msk

/-- Authenticate and install the first Child SA. -/
def ikeAuth : Dial Unit := do
  let s ← session
  match s.ikeSA with
  | none => Proc.raise "session: IKEAuth before IKESAInit"
  | some _ => if s.creds.psk.length > 0 then ikeAuthPSK c w else ikeAuthEAP c w

end Dial

end GoIpsec.Session
