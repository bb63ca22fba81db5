import GoIpsec.Lib.Crypto
import GoIpsec.Esp.Replay

/-!
# The ESP transform

One direction pair of a Child SA: it encrypts inner datagrams into packets with
increasing sequence numbers and decrypts packets of the peer, of which the
anti-replay window admits each once.

A packet is `SPI | Seq | IV | ciphertext | ICV`.  The CBC suite authenticates
everything before the ICV with a MAC.  The AEAD suites authenticate the header as
additional data, and their IV is the sequence number.
-/

namespace GoIpsec.Esp

open Golang

/-- The ESP suites.  An identifier the code does not define is `other`. -/
inductive Suite where
  | aesCBC256SHA256
  | aesGCM256
  | chaCha20Poly1305
  | other (n : UInt8)
deriving Repr, DecidableEq

def Suite.string : Suite → String
  | .aesCBC256SHA256 => "aes256-sha256"
  | .aesGCM256 => "aes256gcm16"
  | .chaCha20Poly1305 => "chacha20poly1305"
  | .other n => s!"esp-suite-{n}"

def espHeaderLen : Nat := 8
def cbcIVLen : Nat := 16
def espICVLen : Nat := 16
def espBlock : Nat := 16
def aeadIVLen : Nat := 8
def aeadSaltLen : Nat := 4
def cbcEncrKeyLen : Nat := 32
def cbcIntegKeyLen : Nat := 32
def aeadEncrKeyLen : Nat := 36
def nextHeaderIPv4 : UInt8 := 4
def nextHeaderIPv6 : UInt8 := 41

def errReplay : Fault := .err "esp: replay or out-of-window sequence"
def errSeqExhausted : Fault := .err "esp: outbound sequence number space exhausted, rekey required"

/-- The key state of an SA, for the suite it runs. -/
inductive Keys where
  | cbc (outBlock inBlock outInteg inInteg : Bytes)
  | aead (outAEAD inAEAD : AEAD) (outSalt inSalt : Bytes)
deriving Repr, DecidableEq

structure SA where
  suite : Suite
  /-- The SPI of the peer, which our packets carry. -/
  outSPI : UInt32
  /-- Our SPI, expected in the packets of the peer. -/
  inSPI : UInt32
  keys : Keys
  /-- The last outbound sequence number used. -/
  seq : UInt32
  replay : ReplayWindow
deriving Repr, DecidableEq

/-! ## Construction -/

/-- The key lengths of one direction are those of the suite. -/
def checkKeyMaterial (suite : Suite) (name : String) (encr integ : Bytes) (wantEncr wantInteg : Nat) :
    Go Unit :=
  let (suite, encrLen, integLen) := (suite.string, encr.length, integ.length)
  if encrLen ≠ wantEncr ∨ integLen ≠ wantInteg then
    fail s!"esp: {suite} {name} key material: encr {encrLen} + integ {integLen} bytes, want {wantEncr} + {wantInteg}"
  else .ok ()

def aeadKind : Suite → Option AEADKind
  | .aesGCM256 => some .aesGCM
  | .chaCha20Poly1305 => some .chacha20Poly1305
  | _ => none

def suiteNumber : Suite → UInt8
  | .aesCBC256SHA256 => 0
  | .aesGCM256 => 1
  | .chaCha20Poly1305 => 2
  | .other n => n

def newAEAD (suite : Suite) (key : Bytes) : Go AEAD :=
  let number := suiteNumber suite
  match aeadKind suite with
  | some kind => newAEADOf kind key
  | none => fail s!"esp: suite {number} is not an AEAD suite"

def newKeysCBC (suite : Suite) (outEncr outInteg inEncr inInteg : Bytes) : Go Keys := do
  checkKeyMaterial suite "outbound" outEncr outInteg cbcEncrKeyLen cbcIntegKeyLen
  checkKeyMaterial suite "inbound" inEncr inInteg cbcEncrKeyLen cbcIntegKeyLen
  wrapErr "esp: outbound cipher: " (aesNewCipher outEncr)
  wrapErr "esp: inbound cipher: " (aesNewCipher inEncr)
  return .cbc outEncr inEncr outInteg inInteg

def newKeysAEAD (suite : Suite) (outEncr outInteg inEncr inInteg : Bytes) : Go Keys := do
  checkKeyMaterial suite "outbound" outEncr outInteg aeadEncrKeyLen 0
  checkKeyMaterial suite "inbound" inEncr inInteg aeadEncrKeyLen 0
  let outKey ← slice outEncr 0 (aeadEncrKeyLen - aeadSaltLen)
  let outAEAD ← wrapErr "esp: outbound cipher: " (newAEAD suite outKey)
  let inKey ← slice inEncr 0 (aeadEncrKeyLen - aeadSaltLen)
  let inAEAD ← wrapErr "esp: inbound cipher: " (newAEAD suite inKey)
  let outSalt ← sliceFrom outEncr (aeadEncrKeyLen - aeadSaltLen)
  let inSalt ← sliceFrom inEncr (aeadEncrKeyLen - aeadSaltLen)
  return .aead outAEAD inAEAD outSalt inSalt

def newKeys (suite : Suite) (outEncr outInteg inEncr inInteg : Bytes) : Go Keys :=
  match suite with
  | .aesCBC256SHA256 => newKeysCBC suite outEncr outInteg inEncr inInteg
  | .aesGCM256 | .chaCha20Poly1305 => newKeysAEAD suite outEncr outInteg inEncr inInteg
  | .other n => fail s!"esp: unknown suite {n}"

def newSA (suite : Suite) (outSPI inSPI : UInt32) (outEncr outInteg inEncr inInteg : Bytes)
    (replayWindow : UInt32) : Go SA := do
  let keys ← newKeys suite outEncr outInteg inEncr inInteg
  return { suite, outSPI, inSPI, keys, seq := 0, replay := newReplayWindow replayWindow }

/-! ## Outbound -/

/-- The Next Header of an inner datagram, by its IP version. -/
def nextHeaderFor (inner : Bytes) : UInt8 :=
  match inner with
  | [] => nextHeaderIPv4
  | x :: _ => if x >>> 4 = 6 then nextHeaderIPv6 else nextHeaderIPv4

/-- The pad octets 1, 2, … -/
def monotonicPad (padLen : Nat) : Bytes := (List.range padLen).map fun i => UInt8.ofNat (i + 1)

/-- inner | pad | padLen | nextHdr. -/
def fillTrailer (inner : Bytes) (padLen : Nat) : Bytes :=
  inner ++ (monotonicPad padLen ++ [UInt8.ofNat padLen, nextHeaderFor inner])

/-- The octets that bring `inner` and its trailer to a multiple of `block`. -/
def padLenFor (block : Nat) (inner : Bytes) : Nat := (block - (inner.length + 2) % block) % block

/-- SPI | Seq. -/
def espHeader (spi seq : UInt32) : Bytes := putUint32 spi ++ putUint32 seq

def encryptCBC (c : Crypto) (block integ : Bytes) (spi seq : UInt32) (rand : RandRead)
    (inner : Bytes) : Go Bytes := do
  let iv ← rand.full cbcIVLen
  let ct ← c.encryptBlocks block iv (fillTrailer inner (padLenFor espBlock inner))
  let msg := espHeader spi seq ++ (iv ++ ct)
  return msg ++ (c.hmac integ msg).take espICVLen

def encryptAEAD (c : Crypto) (aead : AEAD) (salt : Bytes) (spi seq : UInt32) (inner : Bytes) :
    Go Bytes := do
  -- the IV is the sequence number, never used twice under one key
  let iv := putUint64 seq.toUInt64
  let ct ← c.sealWith aead (salt ++ iv) (fillTrailer inner (padLenFor 4 inner)) (espHeader spi seq)
  return espHeader spi seq ++ (iv ++ ct)

/-- Wrap one inner datagram.  The sequence number is used up even if the random
source then fails. -/
def SA.encrypt (c : Crypto) (sa : SA) (rand : RandRead) (inner : Bytes) : Go Bytes × SA :=
  if sa.seq = 0xFFFFFFFF then (.error errSeqExhausted, sa)
  else
    let seq := sa.seq + 1
    let sa := { sa with seq }
    match sa.keys with
    | .cbc outBlock _ outInteg _ => (encryptCBC c outBlock outInteg sa.outSPI seq rand inner, sa)
    | .aead outAEAD _ outSalt _ => (encryptAEAD c outAEAD outSalt sa.outSPI seq inner, sa)

/-! ## Inbound -/

def parseTrailer (plain : Bytes) : Go Bytes :=
  if plain.length < 2 then fail "esp: plaintext shorter than the ESP trailer"
  else do
    let n := plain.length
    let padLen := (← index plain (n - 2)).toNat
    if padLen + 2 > n then fail "esp: pad length out of range"
    else if (← slice plain (n - 2 - padLen) (n - 2)) ≠ monotonicPad padLen then
      fail "esp: malformed self-describing padding"
    else
      let nh ← index plain (n - 1)
      if nh ≠ nextHeaderIPv4 ∧ nh ≠ nextHeaderIPv6 then fail s!"esp: unexpected next header {nh}"
      else slice plain 0 (n - padLen - 2)

/-- The sequence number of a packet that is authentic, with its encrypted part
still to be opened; or of one already opened. -/
structure Verified where
  seq : UInt32
  /-- What is left to do once the window has admitted the packet. -/
  finish : Go Bytes

def hex8 (v : UInt32) : String :=
  let digits := Nat.toDigits 16 v.toNat
  String.ofList (List.replicate (8 - digits.length) '0' ++ digits)

def checkSPI (pkt : Bytes) (inSPI : UInt32) : Go Unit := do
  let spi ← uint32 (← slice pkt 0 4)
  let text := hex8 spi
  if spi ≠ inSPI then fail s!"esp: unknown SPI {text}" else .ok ()

/-- What `decryptCBC` does with a packet the window has admitted. -/
def openCBC (c : Crypto) (block : Bytes) (pkt : Bytes) : Go Bytes := do
  let iv ← slice pkt espHeaderLen (espHeaderLen + cbcIVLen)
  let ct ← slice pkt (espHeaderLen + cbcIVLen) (pkt.length - espICVLen)
  if ct.length = 0 ∨ ct.length % espBlock ≠ 0 then fail "esp: ciphertext not block-aligned"
  else parseTrailer (← c.decryptBlocks block iv ct)

def verifyCBC (c : Crypto) (block integ : Bytes) (inSPI : UInt32) (pkt : Bytes) : Go Verified :=
  if pkt.length < espHeaderLen + cbcIVLen + espBlock + espICVLen then fail "esp: packet too short"
  else do
    checkSPI pkt inSPI
    let seq ← uint32 (← slice pkt 4 8)
    let icvStart := pkt.length - espICVLen
    let icv ← sliceFrom pkt icvStart
    if (c.hmac integ (← slice pkt 0 icvStart)).take espICVLen ≠ icv then
      fail "esp: ICV verification failed"
    else return { seq, finish := openCBC c block pkt }

def verifyAEAD (c : Crypto) (aead : AEAD) (salt : Bytes) (inSPI : UInt32) (pkt : Bytes) :
    Go Verified :=
  if pkt.length < espHeaderLen + aeadIVLen + 2 + espICVLen then fail "esp: packet too short"
  else do
    checkSPI pkt inSPI
    let seq ← uint32 (← slice pkt 4 8)
    let nonce := salt ++ (← slice pkt espHeaderLen (espHeaderLen + aeadIVLen))
    let ct ← sliceFrom pkt (espHeaderLen + aeadIVLen)
    match ← c.openWith aead nonce ct (← slice pkt 0 espHeaderLen) with
    | none => fail "esp: AEAD authentication failed"
    | some plain => return { seq, finish := parseTrailer plain }

/-- The checks in front of the anti-replay window. -/
def SA.verify (c : Crypto) (sa : SA) (pkt : Bytes) : Go Verified :=
  match sa.keys with
  | .cbc _ inBlock _ inInteg => verifyCBC c inBlock inInteg sa.inSPI pkt
  | .aead _ inAEAD _ inSalt => verifyAEAD c inAEAD inSalt sa.inSPI pkt

/-- Verify and decrypt one packet.  Only an authentic packet moves the window. -/
def SA.decrypt (c : Crypto) (sa : SA) (pkt : Bytes) : Go Bytes × SA :=
  match sa.verify c pkt with
  | .error e => (.error e, sa)
  | .ok v =>
      match sa.replay.accept v.seq with
      | .error e => (.error e, sa)
      | .ok (ok, replay) =>
          let sa := { sa with replay }
          (if ok then v.finish else .error errReplay, sa)

end GoIpsec.Esp
