import GoIpsec.Ikemsg.RoundTrip
import GoIpsec.Session.Handshake

/-!
# IKE_SA_INIT

The first exchange of a session.  The responder may ask for the request again, with
a cookie, with a key of the other group, or with both, so up to four requests are
sent.  They all have Message ID 0.

The datagrams of the last one are kept as they were sent and received: the AUTH
payloads sign them.
-/

set_option linter.dupNamespace false

namespace GoIpsec.Session

open Golang Ikemsg Ikesa

def notifyNATDetectionSourceIP : NotifyType := 16388
def notifyNATDetectionDestinationIP : NotifyType := 16389
def notifyCookie : NotifyType := 16390

/-- Sixteen hexadecimal digits. -/
def hex16 (v : UInt64) : String :=
  let digits := Nat.toDigits 16 v.toNat
  String.ofList (List.replicate (16 - digits.length) '0' ++ digits)

section

variable {ID : Type} [SuiteID ID] [DecidableEq ID]

/-- Every configured suite has a row. -/
def checkSuites (layer : String) (table : List (TransformSuite ID)) : List ID → Go Unit
  | [] => .ok ()
  | id :: rest =>
      match suiteByID id table with
      | none =>
          let name := SuiteID.string id
          fail s!"session: {layer} suite {name} has no negotiation table entry"
      | some _ => checkSuites layer table rest

end

/-! ## Messages -/

namespace Handshake

variable (w : World) (s : Handshake)

def checkConfiguredSuites : Go Unit := do
  checkSuites "ESP" Session.espSuites s.cfg.espSuites
  checkSuites "IKE" Session.ikeSuites s.cfg.ikeSuites

/-- The payloads `appendNATDetection` appends. -/
def natDetection : Payloads :=
  [.notify { protocol := protocolNone, type := notifyNATDetectionSourceIP,
             data := w.localHash s.initiatorSPI s.responderSPI },
   .notify { protocol := protocolNone, type := notifyNATDetectionDestinationIP,
             data := w.remoteHash s.initiatorSPI s.responderSPI }]

/-- The request for a key pair of ours. -/
def saInitRequest (dh : DH) (cookie : Bytes) : Message where
  initiatorSPI := s.initiatorSPI
  responderSPI := 0
  exchange := exchangeIKESAInit
  flags := flagInitiator
  messageID := 0
  payloads :=
    (if cookie.length > 0 then
      [.notify { protocol := protocolNone, type := notifyCookie, data := cookie }] else []) ++
    ([.sa { proposals := buildProposals [] s.enabledIKESuites [dhX25519, dhMODP2048] },
      .ke { group := dh.group, data := dh.pub },
      .nonce { data := s.nonceI }] ++ s.natDetection w)

def buildSAInit (cookie : Bytes) : Go (Message × Bytes) :=
  match s.dh with
  | none => .error .panic
  | some dh => do
      let m := s.saInitRequest w dh cookie
      let raw ← wrapErr "session: encode IKE_SA_INIT: " m.marshal
      return (m, raw)

end Handshake

/-- The data of the first notify of a type. -/
def firstNotify (type : NotifyType) : Payloads → Option Bytes
  | [] => none
  | .notify n :: ps => if n.type = type then some n.data else firstNotify type ps
  | _ :: ps => firstNotify type ps

/-- The cookie the responder asks for.  One of a length out of range is ignored. -/
def saInitCookie (raw : Bytes) : Option Bytes :=
  match parse raw with
  | .error _ => none
  | .ok m =>
      match firstNotify notifyCookie m.payloads with
      | none => none
      | some data => if data.length = 0 ∨ data.length > 64 then none else some data

/-- The group the responder asks for, 0 if the notify does not name one. -/
def saInitInvalidKE (raw : Bytes) : Option UInt16 :=
  match parse raw with
  | .error _ => none
  | .ok m =>
      match firstNotify notifyInvalidKEPayload m.payloads with
      | none => none
      | some data => some (if data.length ≥ 2 then valueD (uint16 data) 0 else 0)

def saInitNotifyError (n : NotifyPayload) : Option String :=
  if n.type = notifyNoProposalChosen then
    some "session: responder rejected all IKE proposals (NO_PROPOSAL_CHOSEN)"
  else if n.type = notifyInvalidSyntax then
    some "session: responder reported INVALID_SYNTAX in IKE_SA_INIT"
  else none

/-! ## The response -/

/-- What the payloads of a response have given so far. -/
structure SaInitResponse where
  suite : Option IkeSuite := none
  gotKE : Bool := false
  gotNonce : Bool := false
  natNotifies : List NotifyPayload := []
  notifyErr : Option String := none

namespace Dial

section

variable (c : Crypto) (w : World)

/-- An exchange with Message ID 0. -/
def exchangeInit (reqBytes : Bytes) : Dial Bytes := do
  let rspBytes ← exchange w reqBytes 0
  noteTaken
  return rspBytes

/-- Build and send a request, and keep both datagrams. -/
def sendSAInit (cookie : Bytes) : Dial Bytes := do
  let (_, reqBytes) ← Proc.lift ((← session).buildSAInit w cookie)
  setSession fun s => { s with initSAInitReq := reqBytes }
  let rspBytes ← Proc.wrap "session: IKE_SA_INIT exchange: " (exchangeInit w reqBytes)
  setSession fun s => { s with initSAInitRsp := rspBytes }
  return rspBytes

/-- One payload of the response.  A later payload of a kind replaces an earlier
one. -/
def saInitPayload (dh : DH) (r : SaInitResponse) : Payload → Dial SaInitResponse
  | .sa p => do
      match p.proposals with
      | [] => Proc.raise "session: IKE_SA_INIT response carries no proposal"
      | prop :: _ =>
          match selectedSuite prop (← session).enabledIKESuites with
          | none =>
              let offered := describeProposals p
              Proc.raise s!"session: responder selected an unsupported or ambiguous IKE proposal ({offered})"
          | some suite =>
              let g := selectedDHGroup prop
              let ours := dh.group
              if g ≠ ours then
                Proc.raise s!"session: responder selected DH group {g} but our KE is group {ours}"
              else return { r with suite := some suite }
  | .ke p => do
      setSession fun s => { s with peerDHPub := p.data }
      return { r with gotKE := true }
  | .nonce p => do
      setSession fun s => { s with nonceR := p.data }
      return { r with gotNonce := true }
  | .notify n =>
      let nat := n.type = notifyNATDetectionSourceIP ∨ n.type = notifyNATDetectionDestinationIP
      return { r with
        notifyErr := (saInitNotifyError n).or r.notifyErr
        natNotifies := if nat then r.natNotifies ++ [n] else r.natNotifies }
  | _ => return r

def saInitPayloads (dh : DH) (r : SaInitResponse) : Payloads → Dial SaInitResponse
  | [] => return r
  | p :: ps => do saInitPayloads dh (← saInitPayload dh r p) ps

/-- A hash that differs from the one we compute shows a NAT on that side. -/
def processNATDetection (notifies : List NotifyPayload) : Dial Unit :=
  setSession fun s =>
    let differs := fun n : NotifyPayload =>
      (n.type = notifyNATDetectionSourceIP ∧ n.data ≠ w.remoteHash s.initiatorSPI s.responderSPI) ∨
      (n.type = notifyNATDetectionDestinationIP ∧
        n.data ≠ w.localHash s.initiatorSPI s.responderSPI)
    { s with natDetected := s.natDetected || notifies.any fun n => differs n }

/-- Validate the response and derive the keys. -/
def handleSAInitResponse (raw : Bytes) : Dial Unit := do
  let m ← Proc.lift (wrapErr "session: decode IKE_SA_INIT response: " (parse raw))
  let s ← session
  let (type, id, spi, ours) := (m.exchange, m.messageID, hex16 m.initiatorSPI, hex16 s.initiatorSPI)
  if m.exchange ≠ exchangeIKESAInit then
    Proc.raise s!"session: unexpected exchange type {type} in IKE_SA_INIT response"
  else if !m.flags.isResponse then
    Proc.raise "session: IKE_SA_INIT datagram is a request, not the expected response"
  else if m.initiatorSPI ≠ s.initiatorSPI then
    Proc.raise s!"session: IKE_SA_INIT response initiator SPI {spi} does not match ours {ours}"
  else if m.messageID ≠ 0 then
    Proc.raise s!"session: IKE_SA_INIT response message ID {id} is not 0"
  else if m.responderSPI = 0 then Proc.raise "session: responder SPI is zero"
  else do
    setSession fun s => { s with responderSPI := m.responderSPI }
    let dh ← deref Handshake.dh
    let r ← saInitPayloads dh {} m.payloads
    match r.notifyErr, r.suite with
    | some text, _ => Proc.raise text
    | none, none => Proc.raise "session: IKE_SA_INIT response missing SA/KE/Nonce"
    | none, some suite =>
        if !r.gotKE || !r.gotNonce then
          Proc.raise "session: IKE_SA_INIT response missing SA/KE/Nonce"
        else do
          processNATDetection w r.natNotifies
          let s ← session
          let shared ← Proc.lift (wrapErr "session: DH: " (dh.shared c s.peerDHPub))
          let sa ← Proc.lift (wrapErr "session: derive IKE keys: "
            (derive c suite.id .initiator s.initiatorSPI s.responderSPI s.nonceI s.nonceR shared))
          setSession fun s => { s with ikeSA := some sa, ikeDHGroup := dh.group }

/-! ## The exchange -/

/-- Answer a cookie challenge, if the response is one.  The cookie is kept for a
further retry. -/
def retryCookie (rspBytes : Bytes) : Dial (Bytes × Bytes) := do
  match saInitCookie rspBytes with
  | none => return ([], rspBytes)
  | some cookie => return (cookie, ← sendSAInit w cookie)

/-- Answer the demand for another group, if the response is one, and the cookie
challenge that may follow. -/
def retryInvalidKE (cookie rspBytes : Bytes) : Dial Unit := do
  match saInitInvalidKE rspBytes with
  | none => return ()
  | some g =>
      let dh ← deref Handshake.dh
      if !supportedDHGroup g || g = dh.group then
        Proc.raise s!"session: responder requires DH group {g} (INVALID_KE_PAYLOAD); no mutually-supported DH group"
      else do
        let dh ← newDHFor c w g
        setSession fun s => { s with dh := some dh }
        let rspBytes ← sendSAInit w cookie
        match saInitCookie rspBytes with
        | none => return ()
        | some cookie =>
            let _ ← sendSAInit w cookie
            return ()

def migrateNATT : Dial Unit := setSession fun s => { s with nattMode := s.nattMode || w.migrates }

/-- The keys of ours: the SPI, the key pair and the nonce. -/
def saInitKeys : Dial Unit := do
  let initiatorSPI ← randUint64 w
  setSession fun s => { s with initiatorSPI }
  let dh ← newDHFor c w dhX25519
  setSession fun s => { s with dh := some dh }
  let nonceI ← randBytes w nonceLen
  setSession fun s => { s with nonceI }

def ikeSAInit : Dial Unit := do
  Proc.lift (← session).checkConfiguredSuites
  saInitKeys c w
  let rspBytes ← sendSAInit w []
  let (cookie, rspBytes) ← retryCookie w rspBytes
  retryInvalidKE c w cookie rspBytes
  handleSAInitResponse c w (← session).initSAInitRsp
  migrateNATT w
  setSession fun s => { s with messageID := 1 }

end

end Dial

end GoIpsec.Session
