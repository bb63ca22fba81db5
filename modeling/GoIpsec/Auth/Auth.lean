import GoIpsec.Lib.Go

/-!
# Authentication of the peer

The octets an AUTH payload signs, the two ways it is checked (a secret both ends
share, or the public key of a certificate), and the checks a certificate has to
pass before its key is used.

Certificates are opaque.  `X509` is the library that parses them, builds their
chains and checks their signatures.
-/

namespace GoIpsec.Auth

open Golang

/-! ## Shared secrets -/

def keyPad : Bytes := "Key Pad for IKEv2".toList.map fun ch => UInt8.ofNat ch.toNat

def methodRSADigitalSignature : UInt8 := 1
def methodSharedKeyMIC : UInt8 := 2
def methodDigitalSignature : UInt8 := 14

/-- `RealMessage | PeerNonce | prf(macKey, IDPrime)`. -/
def signedOctets (prf : Bytes → Bytes → Bytes) (realMessage peerNonce idPrime macKey : Bytes) :
    Bytes :=
  realMessage ++ (peerNonce ++ prf macKey idPrime)

/-- `prf(prf(secret, "Key Pad for IKEv2"), SignedOctets)`. -/
def sharedSecretAuth (prf : Bytes → Bytes → Bytes) (secret signed : Bytes) : Bytes :=
  prf (prf secret keyPad) signed

/-! ## Certificates -/

/-- The name a certificate has to carry.  At most one field is set, and none means
that any name will do. -/
structure PeerName where
  dns : Bytes := []
  ip : Option Bytes := none
  email : Bytes := []
  dn : Bytes := []
  /-- A name is configured and is of a kind that no certificate can be matched
  with. -/
  unverifiable : Bool := false
deriving Repr, DecidableEq

inductive ExtKeyUsage where
  | any
  | serverAuth
  | ipsecEndSystem
  | ipsecTunnel
  | ipsecUser
  | other (n : Nat)
deriving Repr, DecidableEq

inductive SignatureAlgorithm where
  | sha1WithRSA
  | other (n : Nat)
deriving Repr, DecidableEq

/-- The certificate library, with the trust anchors and the time of the check. -/
structure X509 where
  Certificate : Type
  parseCertificate : (der : Bytes) → Go Certificate
  verify : (leaf : Certificate) → (intermediates : List Certificate) → Go Unit
  extKeyUsage : Certificate → List ExtKeyUsage
  unknownExtKeyUsage : Certificate → List (List Nat)
  verifyHostname : Certificate → (host : Bytes) → Go Unit
  /-- `verifyHostname` for the text of an address. -/
  verifyAddr : Certificate → (addr : Bytes) → Go Unit
  emailAddresses : Certificate → List Bytes
  rawSubject : Certificate → Bytes
  checkSignature : Certificate → SignatureAlgorithm → (signed signature : Bytes) → Go Unit
  /-- The algorithm an `AlgorithmIdentifier` names. -/
  signatureAlgorithm : (algoDER : Bytes) → Go SignatureAlgorithm
  quote : Bytes → String
  addrString : (addr : Bytes) → String

section

variable (x : X509)

def oidExtKeyUsageIPSECIKE : List Nat := [1, 3, 6, 1, 5, 5, 7, 3, 17]

/-- The extended key usage permits the part of a gateway, or says nothing. -/
def leafUsableForServerAuth (leaf : x.Certificate) : Bool :=
  (x.extKeyUsage leaf = [] && x.unknownExtKeyUsage leaf = []) ||
  (x.extKeyUsage leaf).any (fun eku =>
    match eku with
    | .other _ => false
    | _ => true) ||
  (x.unknownExtKeyUsage leaf).any (· == oidExtKeyUsageIPSECIKE)

def matchName (leaf : x.Certificate) (name : PeerName) : Go Unit :=
  if name.unverifiable then
    fail "auth: configured RemoteID type cannot be matched against the server certificate"
  else if name.dns ≠ [] then
    let text := x.quote name.dns
    wrapErr s!"auth: server certificate does not match RemoteID {text}: "
      (x.verifyHostname leaf name.dns)
  else
    match name.ip with
    | some ip =>
        let text := x.addrString ip
        wrapErr s!"auth: server certificate does not match RemoteID {text}: " (x.verifyAddr leaf ip)
    | none =>
        if name.email ≠ [] then
          let text := x.quote name.email
          if (x.emailAddresses leaf).contains name.email then .ok ()
          else fail s!"auth: server certificate has no RFC822 SAN matching RemoteID {text}"
        else if name.dn ≠ [] then
          if x.rawSubject leaf = name.dn then .ok ()
          else fail "auth: server certificate subject does not match RemoteID DN"
        else .ok ()

/-- Verify a chain, leaf first, and match the leaf with the expected name. -/
def verifyServerChain (certsDER : List Bytes) (name : PeerName) : Go x.Certificate :=
  match certsDER with
  | [] => fail "auth: responder sent no certificate"
  | leafDER :: rest => do
      let leaf ← wrapErr "auth: parse leaf certificate: " (x.parseCertificate leafDER)
      let inter ← rest.mapM fun der =>
        wrapErr "auth: parse intermediate certificate: " (x.parseCertificate der)
      wrapErr "auth: certificate chain verification failed: " (x.verify leaf inter)
      if !leafUsableForServerAuth x leaf then
        fail "auth: server certificate extended key usage does not permit IKE/TLS server authentication"
      else
        matchName x leaf name
        return leaf

/-- `ASN.1Length(1) | AlgorithmIdentifier | Signature`. -/
def parseRFC7427 (authData : Bytes) : Go (SignatureAlgorithm × Bytes) :=
  if authData.length < 1 then fail "auth: empty RFC 7427 AUTH data"
  else do
    let algoLen := (← index authData 0).toNat
    if 1 + algoLen > authData.length then
      fail "auth: RFC 7427 AlgorithmIdentifier length overflows AUTH data"
    else
      let algoDER ← slice authData 1 (1 + algoLen)
      let sig ← sliceFrom authData (1 + algoLen)
      if sig.length = 0 then fail "auth: RFC 7427 AUTH has empty signature"
      else
        let algo ← x.signatureAlgorithm algoDER
        return (algo, sig)

/-- Check an AUTH payload with the key of a certificate. -/
def verifyCertAuth (method : UInt8) (authData signed : Bytes) (leaf : x.Certificate) : Go Unit :=
  if method = methodRSADigitalSignature then
    x.checkSignature leaf .sha1WithRSA signed authData
  else if method = methodDigitalSignature then do
    let (algo, sig) ← parseRFC7427 x authData
    x.checkSignature leaf algo signed sig
  else fail s!"auth: unsupported responder AUTH method {method}"

end

end GoIpsec.Auth
