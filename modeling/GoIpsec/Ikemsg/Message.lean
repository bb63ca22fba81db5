import GoIpsec.Ikemsg.Payload

/-!
# IKE messages

A message is a header and a chain of payloads.  Each generic payload header
names the type of the payload that follows it, so the type of a payload is
stored one payload earlier, and that of the first in the enclosing header.  The
encrypted payload is the exception: it is the last of its chain, and its field
names the first payload inside it.

A payload of a type the codec does not model is stepped over unless its
Critical bit is set.
-/

namespace GoIpsec.Ikemsg

open Golang

/-- A payload of one of the sixteen modelled kinds. -/
inductive Payload where
  | sa (p : SAPayload)
  | ke (p : KEPayload)
  | idi (p : IDiPayload)
  | idr (p : IDrPayload)
  | cert (p : CertPayload)
  | certReq (p : CertRequestPayload)
  | auth (p : AuthPayload)
  | nonce (p : NoncePayload)
  | notify (p : NotifyPayload)
  | delete (p : DeletePayload)
  | vendorID (p : VendorIDPayload)
  | tsi (p : TSiPayload)
  | tsr (p : TSrPayload)
  | sk (p : EncryptedPayload)
  | cp (p : ConfigPayload)
  | eap (p : EAPPayload)
deriving Repr, DecidableEq

/-- An ordered payload chain, outer or inner. -/
abbrev Payloads := List Payload

def Payload.payloadType : Payload → PayloadType
  | .sa _ => payloadSA
  | .ke _ => payloadKE
  | .idi _ => payloadIDi
  | .idr _ => payloadIDr
  | .cert _ => payloadCert
  | .certReq _ => payloadCertReq
  | .auth _ => payloadAuth
  | .nonce _ => payloadNonce
  | .notify _ => payloadNotify
  | .delete _ => payloadDelete
  | .vendorID _ => payloadVendorID
  | .tsi _ => payloadTSi
  | .tsr _ => payloadTSr
  | .sk _ => payloadSK
  | .cp _ => payloadCP
  | .eap _ => payloadEAP

def Payload.marshalBody : Payload → Go Bytes
  | .sa p => p.marshalBody
  | .ke p => p.marshalBody
  | .idi p => p.marshalBody
  | .idr p => p.marshalBody
  | .cert p => p.marshalBody
  | .certReq p => p.marshalBody
  | .auth p => p.marshalBody
  | .nonce p => p.marshalBody
  | .notify p => p.marshalBody
  | .delete p => p.marshalBody
  | .vendorID p => p.marshalBody
  | .tsi p => p.marshalBody
  | .tsr p => p.marshalBody
  | .sk p => p.marshalBody
  | .cp p => p.marshalBody
  | .eap p => p.marshalBody

/-- The body reader of a payload type, or `none` for a type that is not modelled.
`following` is the Next Payload octet, which only the encrypted payload keeps. -/
def newPayload (t following : PayloadType) : Option (Bytes → Go Payload) :=
  if t = payloadSA then some fun b => .sa <$> SAPayload.unmarshalBody b
  else if t = payloadKE then some fun b => .ke <$> KEPayload.unmarshalBody b
  else if t = payloadIDi then some fun b => .idi <$> IDiPayload.unmarshalBody b
  else if t = payloadIDr then some fun b => .idr <$> IDrPayload.unmarshalBody b
  else if t = payloadCert then some fun b => .cert <$> CertPayload.unmarshalBody b
  else if t = payloadCertReq then some fun b => .certReq <$> CertRequestPayload.unmarshalBody b
  else if t = payloadAuth then some fun b => .auth <$> AuthPayload.unmarshalBody b
  else if t = payloadNonce then some fun b => .nonce <$> NoncePayload.unmarshalBody b
  else if t = payloadNotify then some fun b => .notify <$> NotifyPayload.unmarshalBody b
  else if t = payloadDelete then some fun b => .delete <$> DeletePayload.unmarshalBody b
  else if t = payloadVendorID then some fun b => .vendorID <$> VendorIDPayload.unmarshalBody b
  else if t = payloadTSi then some fun b => .tsi <$> TSiPayload.unmarshalBody b
  else if t = payloadTSr then some fun b => .tsr <$> TSrPayload.unmarshalBody b
  else if t = payloadSK then some fun b => .sk <$> EncryptedPayload.unmarshalBody following b
  else if t = payloadCP then some fun b => .cp <$> ConfigPayload.unmarshalBody b
  else if t = payloadEAP then some fun b => .eap <$> EAPPayload.unmarshalBody b
  else none

/-! ## Headers -/

def headerLen : Nat := 28
def version : UInt8 := 0x20
def genericHeaderLen : Nat := 4
def criticalBit : UInt8 := 0x80

/-- The Next Payload field of `p` in front of `rest`. -/
def nextType (p : Payload) (rest : Payloads) : PayloadType :=
  match rest with
  | q :: _ => q.payloadType
  | [] =>
      match p with
      | .sk e => e.innerFirst
      | _ => payloadNone

/-- NextPayload(1) | Critical and RESERVED(1) | Length(2).  Critical is never
set. -/
def genericHeader (next : PayloadType) (bodyLen : Nat) : Bytes :=
  [next, 0] ++ putUint16 (UInt16.ofNat (genericHeaderLen + bodyLen))

/-! ## Encoding -/

/-- The bytes of a chain. -/
def marshalChain : Payloads → Go Bytes
  | [] => .ok []
  | p :: rest => do
      let payloadBody ← p.marshalBody
      let bodyLen := payloadBody.length
      let type := p.payloadType
      if bodyLen > 0xFFFF - genericHeaderLen then
        fail s!"ikemsg: payload type {type} body of {bodyLen} bytes exceeds the 16-bit length field"
      else
        let more ← marshalChain rest
        return genericHeader (nextType p rest) bodyLen ++ (payloadBody ++ more)

/-- The type of the first payload of a chain. -/
def firstType : Payloads → PayloadType
  | [] => payloadNone
  | p :: _ => p.payloadType

/-- Encode a chain, with the type its enclosing header must announce. -/
def Payloads.marshal (ps : Payloads) : Go (PayloadType × Bytes) := do
  let body ← marshalChain ps
  return (firstType ps, body)

structure Message where
  initiatorSPI : UInt64
  responderSPI : UInt64
  exchange : ExchangeType
  flags : Flags
  messageID : UInt32
  payloads : Payloads
deriving Repr, DecidableEq

/-- SPIi(8) | SPIr(8) | NextPayload(1) | Version(1) | Exchange(1) | Flags(1) |
MessageID(4) | Length(4). -/
def Message.header (m : Message) (first : PayloadType) (bodyLen : Nat) : Bytes :=
  putUint64 m.initiatorSPI ++ (putUint64 m.responderSPI ++ ([first, version, m.exchange, m.flags] ++
    (putUint32 m.messageID ++ putUint32 (UInt32.ofNat (headerLen + bodyLen)))))

def Message.marshal (m : Message) : Go Bytes := do
  let (first, body) ← m.payloads.marshal
  return m.header first body.length ++ body

/-! ## Decoding -/

/-- One payload off the front of a chain whose type is `next`. -/
def parsePayload (next : PayloadType) (body : Bytes) :
    Go (List Payload × PayloadType × Bytes) :=
  if body.length < genericHeaderLen then fail "ikemsg: truncated generic payload header"
  else do
    let following ← index body 0
    let critical := (← index body 1) &&& criticalBit ≠ 0
    let plen := (← uint16 (← slice body 2 4)).toNat
    let bodyLen := body.length
    if plen < genericHeaderLen then fail s!"ikemsg: payload length {plen} below the 4-byte minimum"
    else if plen > bodyLen then
      fail s!"ikemsg: payload length {plen} overruns the {bodyLen} remaining bytes"
    else
      match newPayload next following with
      | none =>
          if critical then fail s!"ikemsg: unknown critical payload type {next}"
          else return ([], following, ← sliceFrom body plen)
      | some unmarshalBody =>
          let p ← wrapErr s!"ikemsg: payload type {next}: "
            (unmarshalBody (← slice body genericHeaderLen plen))
          return ([p], following, ← sliceFrom body plen)

/-- Walk a chain whose first payload has type `first`. -/
def parseChain (first : PayloadType) (body : Bytes) : Go Payloads := many parsePayload first body

/-- Decode the inner chain of an encrypted payload. -/
def parsePayloads (first : PayloadType) (body : Bytes) : Go Payloads := parseChain first body

/-- Decode one datagram.  Its length must be the one the header declares. -/
def parse (raw : Bytes) : Go Message :=
  if raw.length < headerLen then fail "ikemsg: datagram shorter than 28-byte IKE header"
  else do
    let length := (← uint32 (← slice raw 24 28)).toNat
    let rawLen := raw.length
    if length < headerLen then fail s!"ikemsg: header length {length} below the 28-byte minimum"
    else if rawLen ≠ length then
      fail s!"ikemsg: datagram length {rawLen} does not match header length {length}"
    else
      let initiatorSPI ← uint64 (← slice raw 0 8)
      let responderSPI ← uint64 (← slice raw 8 16)
      let exchange ← index raw 18
      let flags ← index raw 19
      let messageID ← uint32 (← slice raw 20 24)
      let first ← index raw 16
      let payloads ← parseChain first (← sliceFrom raw headerLen)
      return { initiatorSPI, responderSPI, exchange, flags, messageID, payloads }

end GoIpsec.Ikemsg
