import GoIpsec.Lib.Loop

/-!
# IKE payloads

The sixteen payload kinds of the message codec and the encoding of each body,
that is, everything after the generic payload header.  A kind has a structure, a
`marshalBody` and an `unmarshalBody`, as in the source.

Codes the wire leaves open (payload, exchange, protocol, transform, notify and
identity types) are integers of their width: a peer may send any of them, and
most are carried without being interpreted.

`nil` and the empty slice are one value here.  No codec function tells them
apart.
-/

namespace GoIpsec.Ikemsg

open Golang

/-! ## Codes -/

/-- The type of a payload, as the Next Payload field carries it. -/
abbrev PayloadType := UInt8

def payloadNone : PayloadType := 0
def payloadSA : PayloadType := 33
def payloadKE : PayloadType := 34
def payloadIDi : PayloadType := 35
def payloadIDr : PayloadType := 36
def payloadCert : PayloadType := 37
def payloadCertReq : PayloadType := 38
def payloadAuth : PayloadType := 39
def payloadNonce : PayloadType := 40
def payloadNotify : PayloadType := 41
def payloadDelete : PayloadType := 42
def payloadVendorID : PayloadType := 43
def payloadTSi : PayloadType := 44
def payloadTSr : PayloadType := 45
def payloadSK : PayloadType := 46
def payloadCP : PayloadType := 47
def payloadEAP : PayloadType := 48

abbrev ExchangeType := UInt8

def exchangeIKESAInit : ExchangeType := 34
def exchangeIKEAuth : ExchangeType := 35
def exchangeCreateChildSA : ExchangeType := 36
def exchangeInformational : ExchangeType := 37

abbrev ProtocolID := UInt8

def protocolNone : ProtocolID := 0
def protocolIKE : ProtocolID := 1
def protocolESP : ProtocolID := 3

abbrev TransformType := UInt8

def transformEncr : TransformType := 1
def transformPRF : TransformType := 2
def transformInteg : TransformType := 3
def transformDH : TransformType := 4
def transformESN : TransformType := 5

def encrAESCBC : UInt16 := 12
def encrAESGCM16 : UInt16 := 20
def encrChaCha20Poly1305 : UInt16 := 28
def prfHMACSHA2256 : UInt16 := 5
def authNone : UInt16 := 0
def authHMACSHA2256128 : UInt16 := 12
def dhMODP2048 : UInt16 := 14
def dhX25519 : UInt16 := 31
def esnNone : UInt16 := 0

/-- The Key Length attribute, the one transform attribute the codec surfaces. -/
def attrKeyLength : UInt16 := 14

abbrev NotifyType := UInt16

/-- The first status type; the types from 1 up to it are errors. -/
def notifyStatus : UInt16 := 16384

def notifyInvalidSyntax : NotifyType := 7
def notifyNoProposalChosen : NotifyType := 14
def notifyInvalidKEPayload : NotifyType := 17
def notifyTemporaryFailure : NotifyType := 43
def notifyChildSANotFound : NotifyType := 44
def notifyRekeySA : NotifyType := 16393

def NotifyType.isError (t : NotifyType) : Bool := t != 0 && t < notifyStatus

abbrev TSType := UInt8

def tsIPv4AddrRange : TSType := 7
def tsIPv6AddrRange : TSType := 8

/-- The header flags octet. -/
abbrev Flags := UInt8

def flagInitiator : Flags := 0x08
def flagResponse : Flags := 0x20

def Flags.isInitiator (f : Flags) : Bool := f &&& flagInitiator != 0

def Flags.isResponse (f : Flags) : Bool := f &&& flagResponse != 0

/-! ## Security association payloads -/

structure Transform where
  type : TransformType
  id : UInt16
  keyLength : UInt16 := 0
  hasKeyLength : Bool := false
deriving Repr, DecidableEq

structure Proposal where
  number : UInt8
  protocol : ProtocolID
  spi : Bytes
  transforms : List Transform
deriving Repr, DecidableEq

/-- The transforms of one type, in order. -/
def Proposal.byType (p : Proposal) (t : TransformType) : List Transform :=
  p.transforms.filter fun tr => tr.type == t

structure SAPayload where
  proposals : List Proposal
deriving Repr, DecidableEq

/-- The Key Length attribute in its TV form: the high bit marks the form. -/
def keyLengthAttr (keyLength : UInt16) : Bytes :=
  putUint16 (0x8000 ||| attrKeyLength) ++ putUint16 keyLength

def marshalTransform (t : Transform) (more : Bool) : Go Bytes :=
  if t.keyLength ≠ 0 ∧ t.hasKeyLength = false then
    let (type, id, keyLength) := (t.type, t.id, t.keyLength)
    fail s!"transform type {type} id {id}: KeyLength {keyLength} set without HasKeyLength"
  else
    let attr := if t.hasKeyLength then keyLengthAttr t.keyLength else []
    -- more(1) | RESERVED(1) | Length(2) | Type(1) | RESERVED(1) | ID(2) | attributes
    .ok ([if more then 3 else 0, 0] ++ (putUint16 (UInt16.ofNat (8 + attr.length)) ++
      ([t.type, 0] ++ (putUint16 t.id ++ attr))))

def marshalTransforms (ts : List Transform) : Go Bytes := writeAll marshalTransform ts

def marshalProposal (p : Proposal) (more : Bool) : Go Bytes :=
  let spiLen := p.spi.length
  let count := p.transforms.length
  if spiLen > 255 then
    fail s!"proposal SPI is {spiLen} bytes, exceeds the 1-octet SPI Size field"
  else if count > 255 then
    fail s!"proposal has {count} transforms, exceeds the 1-octet count field"
  else do
    let td ← marshalTransforms p.transforms
    -- more(1) | RESERVED(1) | Length(2) | Number(1) | Protocol(1) | SPISize(1) |
    -- NumTransforms(1) | SPI | transforms
    return [if more then 2 else 0, 0] ++ (putUint16 (UInt16.ofNat (8 + spiLen + td.length)) ++
      ([p.number, p.protocol, UInt8.ofNat spiLen, UInt8.ofNat count] ++ (p.spi ++ td)))

def SAPayload.marshalBody (sa : SAPayload) : Go Bytes := writeAll marshalProposal sa.proposals

/-- One transform attribute.  Only the TV form of Key Length contributes, the
others are stepped over. -/
def parseAttr (tlen : Nat) (attrs : Bytes) : Go (Option UInt16 × Bytes) :=
  if attrs.length < 4 then fail s!"transform attribute truncated in transform length {tlen}"
  else do
    let af ← uint16 (← slice attrs 0 2)
    if af &&& 0x8000 ≠ 0 then
      let v ← uint16 (← slice attrs 2 4)
      let rest ← sliceFrom attrs 4
      return (if af &&& 0x7fff = attrKeyLength then some v else none, rest)
    else
      let alen := (← uint16 (← slice attrs 2 4)).toNat
      if 4 + alen > attrs.length then
        fail s!"transform TLV attribute length {alen} overruns the transform"
      else
        let rest ← sliceFrom attrs (4 + alen)
        return (none, rest)

/-- The last Key Length of a list of attributes, if there is one. -/
def lastKeyLength (as : List (Option UInt16)) : Option UInt16 :=
  as.foldl (fun acc a => a.or acc) none

/-- One transform substructure, read off the front of `body`. -/
def parseTransform (body : Bytes) : Go (Transform × Bytes) :=
  if body.length < 8 then fail "transform header truncated"
  else do
    let tlen := (← uint16 (← slice body 2 4)).toNat
    let bodyLen := body.length
    if tlen < 8 then fail s!"transform length {tlen} below the 8-byte minimum"
    else if tlen > bodyLen then
      fail s!"transform length {tlen} overruns the {bodyLen} remaining bytes"
    else
      let type ← index body 4
      let id ← uint16 (← slice body 6 8)
      let attrs ← readAll (parseAttr tlen) (← slice body 8 tlen)
      let rest ← sliceFrom body tlen
      match lastKeyLength attrs with
      | some v => return ({ type, id, keyLength := v, hasKeyLength := true }, rest)
      | none => return ({ type, id }, rest)

def parseTransforms (body : Bytes) : Go (List Transform) := readAll parseTransform body

/-- One proposal substructure, read off the front of `body`. -/
def parseProposal (body : Bytes) : Go (Proposal × Bytes) :=
  if body.length < 8 then fail "proposal header truncated"
  else do
    let plen := (← uint16 (← slice body 2 4)).toNat
    let bodyLen := body.length
    if plen < 8 then fail s!"proposal length {plen} below the 8-byte minimum"
    else if plen > bodyLen then
      fail s!"proposal length {plen} overruns the {bodyLen} remaining bytes"
    else
      let spiSize := (← index body 6).toNat
      if 8 + spiSize > plen then
        fail s!"proposal SPI size {spiSize} overruns proposal length {plen}"
      else
        let number ← index body 4
        let protocol ← index body 5
        let spi ← slice body 8 (8 + spiSize)
        let transforms ← parseTransforms (← slice body (8 + spiSize) plen)
        let rest ← sliceFrom body plen
        return ({ number, protocol, spi, transforms }, rest)

def SAPayload.unmarshalBody (body : Bytes) : Go SAPayload := do
  return { proposals := ← readAll parseProposal body }

/-! ## Payloads of one header and opaque data -/

structure KEPayload where
  group : UInt16
  data : Bytes
deriving Repr, DecidableEq

def KEPayload.marshalBody (ke : KEPayload) : Go Bytes :=
  .ok (putUint16 ke.group ++ ([0, 0] ++ ke.data))

def KEPayload.unmarshalBody (body : Bytes) : Go KEPayload :=
  if body.length < 4 then fail "key exchange payload shorter than 4 bytes"
  else do
    let group ← uint16 (← slice body 0 2)
    let data ← sliceFrom body 4
    return { group, data }

structure NoncePayload where
  data : Bytes
deriving Repr, DecidableEq

def minNonceLen : Nat := 16
def maxNonceLen : Nat := 256

def NoncePayload.marshalBody (n : NoncePayload) : Go Bytes := .ok n.data

def NoncePayload.unmarshalBody (body : Bytes) : Go NoncePayload :=
  let bodyLen := body.length
  if bodyLen < minNonceLen ∨ bodyLen > maxNonceLen then
    fail s!"nonce payload {bodyLen} bytes, outside the {minNonceLen}..{maxNonceLen}-byte range"
  else .ok { data := body }

/-- `code | RESERVED(3) | data`, the layout of both identification payloads and of
the authentication payload. -/
def marshalIDBody (idType : UInt8) (data : Bytes) : Bytes := [idType, 0, 0, 0] ++ data

/-- The converse of `marshalIDBody`; `what` names the payload in the error. -/
def parseIDBody (what : String) (body : Bytes) : Go (UInt8 × Bytes) :=
  if body.length < 4 then fail s!"{what} payload shorter than 4 bytes"
  else do
    let idType ← index body 0
    let data ← sliceFrom body 4
    return (idType, data)

structure IDiPayload where
  idType : UInt8
  data : Bytes
deriving Repr, DecidableEq

def IDiPayload.marshalBody (id : IDiPayload) : Go Bytes := .ok (marshalIDBody id.idType id.data)

def IDiPayload.unmarshalBody (body : Bytes) : Go IDiPayload := do
  let (idType, data) ← parseIDBody "identification" body
  return { idType, data }

structure IDrPayload where
  idType : UInt8
  data : Bytes
deriving Repr, DecidableEq

def IDrPayload.marshalBody (id : IDrPayload) : Go Bytes := .ok (marshalIDBody id.idType id.data)

def IDrPayload.unmarshalBody (body : Bytes) : Go IDrPayload := do
  let (idType, data) ← parseIDBody "identification" body
  return { idType, data }

structure AuthPayload where
  method : UInt8
  data : Bytes
deriving Repr, DecidableEq

def AuthPayload.marshalBody (a : AuthPayload) : Go Bytes := .ok (marshalIDBody a.method a.data)

def AuthPayload.unmarshalBody (body : Bytes) : Go AuthPayload := do
  let (method, data) ← parseIDBody "authentication" body
  return { method, data }

/-- `Encoding(1) | data`, the layout of both certificate payloads. -/
def marshalCertBody (encoding : UInt8) (data : Bytes) : Bytes := encoding :: data

def parseCertBody (what : String) (body : Bytes) : Go (UInt8 × Bytes) :=
  if body.length < 1 then fail s!"{what} payload is empty"
  else do
    let encoding ← index body 0
    let data ← sliceFrom body 1
    return (encoding, data)

structure CertPayload where
  encoding : UInt8
  data : Bytes
deriving Repr, DecidableEq

def CertPayload.marshalBody (c : CertPayload) : Go Bytes := .ok (marshalCertBody c.encoding c.data)

def CertPayload.unmarshalBody (body : Bytes) : Go CertPayload := do
  let (encoding, data) ← parseCertBody "certificate" body
  return { encoding, data }

structure CertRequestPayload where
  encoding : UInt8
  data : Bytes
deriving Repr, DecidableEq

def CertRequestPayload.marshalBody (c : CertRequestPayload) : Go Bytes :=
  .ok (marshalCertBody c.encoding c.data)

def CertRequestPayload.unmarshalBody (body : Bytes) : Go CertRequestPayload := do
  let (encoding, data) ← parseCertBody "certificate request" body
  return { encoding, data }

structure VendorIDPayload where
  data : Bytes
deriving Repr, DecidableEq

def VendorIDPayload.marshalBody (v : VendorIDPayload) : Go Bytes := .ok v.data
def VendorIDPayload.unmarshalBody (body : Bytes) : Go VendorIDPayload := .ok { data := body }

structure EAPPayload where
  data : Bytes
deriving Repr, DecidableEq

def EAPPayload.marshalBody (e : EAPPayload) : Go Bytes := .ok e.data
def EAPPayload.unmarshalBody (body : Bytes) : Go EAPPayload := .ok { data := body }

/-- The encrypted payload.  `innerFirst` is the type of the first inner payload,
which its generic header carries in place of a sibling's type. -/
structure EncryptedPayload where
  innerFirst : PayloadType
  data : Bytes
deriving Repr, DecidableEq

def EncryptedPayload.marshalBody (e : EncryptedPayload) : Go Bytes := .ok e.data

/-- `following` is the Next Payload octet in front of `body`. -/
def EncryptedPayload.unmarshalBody (following : PayloadType) (body : Bytes) :
    Go EncryptedPayload :=
  .ok { innerFirst := following, data := body }

/-! ## Notify and delete -/

structure NotifyPayload where
  protocol : ProtocolID
  type : NotifyType
  spi : Bytes := []
  data : Bytes := []
deriving Repr, DecidableEq

def NotifyPayload.marshalBody (n : NotifyPayload) : Go Bytes :=
  .ok ([n.protocol, UInt8.ofNat n.spi.length] ++ (putUint16 n.type ++ (n.spi ++ n.data)))

def NotifyPayload.unmarshalBody (body : Bytes) : Go NotifyPayload :=
  if body.length < 4 then fail "notify payload shorter than 4 bytes"
  else do
    let spiSize := (← index body 1).toNat
    let bodyLen := body.length
    if 4 + spiSize > bodyLen then
      fail s!"notify SPI size {spiSize} overruns the {bodyLen}-byte body"
    else
      let protocol ← index body 0
      let type ← uint16 (← slice body 2 4)
      let spi ← slice body 4 (4 + spiSize)
      let data ← sliceFrom body (4 + spiSize)
      return { protocol, type, spi, data }

structure DeletePayload where
  protocol : ProtocolID
  spis : List Bytes := []
deriving Repr, DecidableEq

/-- The common width of the SPIs: zero when there is none, else that of the
first. -/
def DeletePayload.spiSize (d : DeletePayload) : UInt8 :=
  match d.spis with
  | [] => 0
  | spi :: _ => UInt8.ofNat spi.length

def DeletePayload.marshalBody (d : DeletePayload) : Go Bytes :=
  if d.spis.all fun spi => UInt8.ofNat spi.length == d.spiSize then
    .ok ([d.protocol, d.spiSize] ++ (putUint16 (UInt16.ofNat d.spis.length) ++ d.spis.flatten))
  else fail "delete payload SPIs are not all the same width"

/-- One SPI of the given width. -/
def parseSPI (size : Nat) (b : Bytes) : Go (Bytes × Bytes) := do
  let spi ← slice b 0 size
  let rest ← sliceFrom b size
  return (spi, rest)

def DeletePayload.unmarshalBody (body : Bytes) : Go DeletePayload :=
  if body.length < 4 then fail "delete payload shorter than 4 bytes"
  else do
    let protocol ← index body 0
    let size := (← index body 1).toNat
    let count := (← uint16 (← slice body 2 4)).toNat
    let bodyLen := body.length
    if size = 0 ∧ count > 0 then fail s!"delete payload declares {count} SPIs of zero width"
    else if 4 + size * count > bodyLen then
      fail s!"delete SPIs ({size} × {count}) overrun the {bodyLen}-byte body"
    else
      -- octets behind the last SPI are left unread
      let (spis, _) ← readN (parseSPI size) count (← sliceFrom body 4)
      return { protocol, spis }

/-! ## Traffic selectors -/

structure TrafficSelector where
  tsType : TSType
  protocol : UInt8 := 0
  startPort : UInt16
  endPort : UInt16
  startAddr : Bytes
  endAddr : Bytes
deriving Repr, DecidableEq

/-- The width of an address of the given selector type, zero if unsupported. -/
def addrLen (t : TSType) : Nat :=
  if t = tsIPv4AddrRange then 4 else if t = tsIPv6AddrRange then 16 else 0

def marshalSelector (ts : TrafficSelector) : Go Bytes :=
  let alen := addrLen ts.tsType
  let tsType := ts.tsType
  if alen = 0 then fail s!"unsupported traffic selector type {tsType}"
  else if ts.startAddr.length ≠ alen ∨ ts.endAddr.length ≠ alen then
    fail s!"traffic selector type {tsType} needs {alen}-byte addresses"
  else
    let selLen := 8 + ts.startAddr.length + ts.endAddr.length
    -- TS Type(1) | IP Protocol(1) | Selector Length(2) | Start Port(2) | End Port(2) |
    -- Start Address | End Address
    .ok ([ts.tsType, ts.protocol] ++ (putUint16 (UInt16.ofNat selLen) ++
      (putUint16 ts.startPort ++ (putUint16 ts.endPort ++ (ts.startAddr ++ ts.endAddr)))))

def marshalTSBody (selectors : List TrafficSelector) : Go Bytes :=
  if selectors.isEmpty then fail "traffic selector payload has no selectors"
  else do
    let sels ← writeAll (fun ts _ => marshalSelector ts) selectors
    return [UInt8.ofNat selectors.length, 0, 0, 0] ++ sels

def parseSelector (rest : Bytes) : Go (TrafficSelector × Bytes) :=
  if rest.length < 8 then fail "traffic selector header truncated"
  else do
    let tsType ← index rest 0
    let alen := addrLen tsType
    let restLen := rest.length
    if alen = 0 then fail s!"unsupported traffic selector type {tsType}"
    else
      let selLen := (← uint16 (← slice rest 2 4)).toNat
      let want := 8 + 2 * alen
      if selLen ≠ want then
        fail s!"traffic selector type {tsType} has length {selLen}, want {want}"
      else if selLen > restLen then
        fail s!"traffic selector length {selLen} overruns the {restLen} remaining bytes"
      else
        let protocol ← index rest 1
        let startPort ← uint16 (← slice rest 4 6)
        let endPort ← uint16 (← slice rest 6 8)
        let startAddr ← slice rest 8 (8 + alen)
        let endAddr ← slice rest (8 + alen) (8 + 2 * alen)
        let more ← sliceFrom rest selLen
        return ({ tsType, protocol, startPort, endPort, startAddr, endAddr }, more)

def parseTSBody (body : Bytes) : Go (List TrafficSelector) :=
  if body.length < 4 then fail "traffic selector payload shorter than 4 bytes"
  else do
    let count := (← index body 0).toNat
    if count = 0 then fail "traffic selector payload declares zero selectors"
    else
      let (out, rest) ← readN parseSelector count (← sliceFrom body 4)
      let restLen := rest.length
      if restLen ≠ 0 then
        fail s!"traffic selector payload has {restLen} trailing bytes after {count} selectors"
      else return out

structure TSiPayload where
  selectors : List TrafficSelector
deriving Repr, DecidableEq

def TSiPayload.marshalBody (ts : TSiPayload) : Go Bytes := marshalTSBody ts.selectors
def TSiPayload.unmarshalBody (body : Bytes) : Go TSiPayload := do
  return { selectors := ← parseTSBody body }

structure TSrPayload where
  selectors : List TrafficSelector
deriving Repr, DecidableEq

def TSrPayload.marshalBody (ts : TSrPayload) : Go Bytes := marshalTSBody ts.selectors
def TSrPayload.unmarshalBody (body : Bytes) : Go TSrPayload := do
  return { selectors := ← parseTSBody body }

/-! ## Configuration -/

structure ConfigAttr where
  type : UInt16
  value : Bytes := []
deriving Repr, DecidableEq

structure ConfigPayload where
  cfgType : UInt8
  attributes : List ConfigAttr
deriving Repr, DecidableEq

/-- The high bit of the type field is reserved and written as zero. -/
def marshalConfigAttr (attr : ConfigAttr) : Bytes :=
  putUint16 (attr.type &&& 0x7fff) ++ (putUint16 (UInt16.ofNat attr.value.length) ++ attr.value)

def ConfigPayload.marshalBody (c : ConfigPayload) : Go Bytes :=
  .ok ([c.cfgType, 0, 0, 0] ++ (c.attributes.map marshalConfigAttr).flatten)

def parseConfigAttr (rest : Bytes) : Go (ConfigAttr × Bytes) :=
  if rest.length < 4 then fail "configuration attribute header truncated"
  else do
    let attrType := (← uint16 (← slice rest 0 2)) &&& 0x7fff
    let length := (← uint16 (← slice rest 2 4)).toNat
    let restLen := rest.length
    if 4 + length > restLen then
      fail s!"configuration attribute length {length} overruns the {restLen} remaining bytes"
    else
      let value ← slice rest 4 (4 + length)
      let more ← sliceFrom rest (4 + length)
      return ({ type := attrType, value }, more)

def ConfigPayload.unmarshalBody (body : Bytes) : Go ConfigPayload :=
  if body.length < 4 then fail "configuration payload shorter than 4 bytes"
  else do
    let cfgType ← index body 0
    let attributes ← readAll parseConfigAttr (← sliceFrom body 4)
    return { cfgType, attributes }

end GoIpsec.Ikemsg
