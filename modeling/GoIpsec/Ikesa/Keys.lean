import GoIpsec.Lib.Crypto

/-!
# Key schedule of the IKE SA

The Diffie-Hellman groups, the pseudorandom function and its expansion, and the
keys derived from them: those of an IKE SA, of the IKE SA that replaces it, and of
the Child SAs under it.

Both ends of an SA derive the same keys.  The role only says which of them are
for sending.
-/

namespace GoIpsec.Ikesa

open Golang

/-! ## Diffie-Hellman -/

def dhGroup14 : UInt16 := 14
def dhGroup31 : UInt16 := 31
def modp2048Len : Nat := 256
def modp2048G : Nat := 2

def modp2048P : Nat :=
  0xFFFFFFFFFFFFFFFFC90FDAA22168C234C4C6628B80DC1CD129024E088A67CC74020BBEA63B139B22514A08798E3404DDEF9519B3CD3A431B302B0A6DF25F14374FE1356D6D51C245E485B576625E7EC6F44C42E9A637ED6B0BFF5CB6F406B7EDEE386BFB5A899FA5AE9F24117C4B1FE649286651ECE45B3DC2007CB8A163BF0598DA48361C55D39A69163FA8FD24CF5F83655D23DCA3AD961C62F356208552BB9ED529077096966D670C354E4ABC9804F1746C08CA18217C32905E462E36CE3BE39E772C180E86039B2783A2EC07A28FB5C55DF06F4C52C9DE2BCBF6955817183995497CEA956AE515D2261898FA051015728E5A8AACAA68FFFFFFFFFFFFFFFF

/-- The private half of one side of an exchange, in one of the two groups. -/
inductive DHPrivate where
  | modp (exponent : Nat)
  | x25519 (key : Bytes)
deriving Repr, DecidableEq

/-- One side of an ephemeral exchange. -/
structure DH where
  priv : DHPrivate
  /-- The public value, as a key exchange payload carries it. -/
  pub : Bytes
deriving Repr, DecidableEq

def DH.group (d : DH) : UInt16 :=
  match d.priv with
  | .modp _ => dhGroup14
  | .x25519 _ => dhGroup31

/-- `b` after zeros, `n` octets in all. -/
def leftPad (b : Bytes) (n : Nat) : Bytes :=
  if b.length ≥ n then b else List.replicate (n - b.length) 0 ++ b

/-- Generate a key pair.  In group 14 the exponent is drawn from `[2, p - 2]`. -/
def newDH (c : Crypto) (group : UInt16) (rand : RandRead) : Go DH :=
  if group = dhGroup14 then do
    let n := getBE (← rand.full modp2048Len) % (modp2048P - 3)
    let priv := n + 2
    let pub := expMod modp2048G priv modp2048P
    return { priv := .modp priv, pub := leftPad (natBytes pub) modp2048Len }
  else if group = dhGroup31 then do
    let priv ← rand.full 32
    return { priv := .x25519 priv, pub := c.x25519Public priv }
  else fail s!"ikesa: unsupported DH group {group}"

/-- The shared secret with the holder of `peerPublic`. -/
def DH.shared (c : Crypto) (d : DH) (peerPublic : Bytes) : Go Bytes :=
  match d.priv with
  | .modp exponent =>
      if peerPublic.length ≠ modp2048Len then fail "ikesa: peer DH public value wrong length"
      else
        let peer := getBE peerPublic
        if peer ≤ 1 ∨ peer > modp2048P - 2 then fail "ikesa: peer DH public value out of range"
        else .ok (leftPad (natBytes (expMod peer exponent modp2048P)) modp2048Len)
  | .x25519 key =>
      if peerPublic.length ≠ 32 then
        fail "ikesa: peer X25519 public value invalid: crypto/ecdh: invalid public key"
      else
        match c.x25519 key peerPublic with
        | some secret => .ok secret
        | none =>
            fail "ikesa: X25519 ECDH: crypto/ecdh: bad X25519 remote ECDH input: low order point"

/-! ## Pseudorandom function -/

def prfKeyLen : Nat := 32
def integKeyLen : Nat := 32
def integICVLen : Nat := 16
def encrKeyLen : Nat := 32
def aesBlock : Nat := 16
def aeadIVLen : Nat := 8
def aeadSaltLen : Nat := 4
def aeadTagLen : Nat := 16
def aeadEncrKeyLen : Nat := 36

/-- prf(key, data). -/
def prf (c : Crypto) (key data : Bytes) : Bytes := c.hmac key data

/-- The loop of `prfPlus` from block `i` on.  The block index is one octet, so at
most 255 blocks can be asked for; `left` of them remain. -/
def prfPlusFrom (c : Crypto) (key seed : Bytes) (keyLen : Nat) :
    (left i : Nat) → (prev out : Bytes) → Go Bytes
  | left, i, prev, out =>
      if keyLen ≤ out.length then slice out 0 keyLen
      else
        match left with
        | 0 => .error .panic
        | left + 1 =>
            let prev := c.hmac key (prev ++ (seed ++ [UInt8.ofNat i]))
            prfPlusFrom c key seed keyLen left (i + 1) prev (out ++ prev)

/-- prf+(key, seed), its first `keyLen` octets. -/
def prfPlus (c : Crypto) (key seed : Bytes) (keyLen : Nat) : Go Bytes :=
  prfPlusFrom c key seed keyLen 255 1 [] []

def integ (c : Crypto) (key data : Bytes) : Bytes := (c.hmac key data).take integICVLen

/-! ## Suites and roles -/

inductive Role where
  | initiator
  | responder
deriving Repr, DecidableEq

def Role.other : Role → Role
  | .initiator => .responder
  | .responder => .initiator

/-- The suites of the SK envelope.  An identifier the code does not define is
`other`; the code treats it as the CBC suite. -/
inductive Suite where
  | aesCBC256SHA256
  | aesGCM256
  | chaCha20Poly1305
  | other (n : UInt8)
deriving Repr, DecidableEq

def Suite.aeadKind : Suite → Option AEADKind
  | .aesGCM256 => some .aesGCM
  | .chaCha20Poly1305 => some .chacha20Poly1305
  | _ => none

/-- Whether the suite is a combined-mode cipher. -/
def Suite.aead (s : Suite) : Bool := s.aeadKind.isSome

/-- The lengths of SK_e and SK_a. -/
def Suite.keyLens (s : Suite) : Nat × Nat :=
  if s.aead then (aeadEncrKeyLen, 0) else (encrKeyLen, integKeyLen)

def Suite.string : Suite → String
  | .aesCBC256SHA256 => "aes256-sha256"
  | .aesGCM256 => "aes256gcm16"
  | .chaCha20Poly1305 => "chacha20poly1305"
  | .other n => s!"ike-suite-{n}"

def newAEAD (suite : Suite) (key : Bytes) : Go AEAD :=
  let name := suite.string
  match suite.aeadKind with
  | some kind => newAEADOf kind key
  | none => fail s!"ikesa: suite {name} is not an AEAD suite"

/-! ## The IKE SA -/

def minNonceLen : Nat := 16

/-- The directional AEAD state, oriented by the role: `out` protects what we send,
`in` opens what we receive. -/
structure AEADState where
  outAEAD : AEAD
  inAEAD : AEAD
  outSalt : Bytes
  inSalt : Bytes
deriving Repr, DecidableEq

structure IKESA where
  role : Role
  suite : Suite
  initiatorSPI : UInt64
  responderSPI : UInt64
  skd : Bytes
  skai : Bytes
  skar : Bytes
  skei : Bytes
  sker : Bytes
  skpi : Bytes
  skpr : Bytes
  /-- Set for the AEAD suites only. -/
  aead : Option AEADState := none
  /-- The outbound IV counter. -/
  skSeq : UInt64 := 0
deriving Repr, DecidableEq

def IKESA.outboundIntegKey (s : IKESA) : Bytes :=
  match s.role with
  | .initiator => s.skai
  | .responder => s.skar

def IKESA.inboundIntegKey (s : IKESA) : Bytes :=
  match s.role with
  | .initiator => s.skar
  | .responder => s.skai

def IKESA.outboundEncrKey (s : IKESA) : Bytes :=
  match s.role with
  | .initiator => s.skei
  | .responder => s.sker

def IKESA.inboundEncrKey (s : IKESA) : Bytes :=
  match s.role with
  | .initiator => s.sker
  | .responder => s.skei

/-- The AEAD state of an SA whose keys are derived. -/
def newAEADState (suite : Suite) (out inb : Bytes) (encrLen : Nat) : Go AEADState := do
  let outKey ← slice out 0 (encrLen - aeadSaltLen)
  let outAEAD ← wrapErr "ikesa: outbound SK cipher: " (newAEAD suite outKey)
  let inKey ← slice inb 0 (encrLen - aeadSaltLen)
  let inAEAD ← wrapErr "ikesa: inbound SK cipher: " (newAEAD suite inKey)
  let outSalt ← sliceFrom out (encrLen - aeadSaltLen)
  let inSalt ← sliceFrom inb (encrLen - aeadSaltLen)
  return { outAEAD, inAEAD, outSalt, inSalt }

/-- Expand SKEYSEED into the keys, in the order SK_d, SK_ai, SK_ar, SK_ei, SK_er,
SK_pi, SK_pr. -/
def deriveFromSKEYSEED (c : Crypto) (suite : Suite) (role : Role) (spii spir : UInt64)
    (nonceI nonceR skeyseed : Bytes) : Go IKESA := do
  let seed := nonceI ++ (nonceR ++ (putUint64 spii ++ putUint64 spir))
  let (encrLen, integLen) := suite.keyLens
  let total := prfKeyLen + 2 * integLen + 2 * encrLen + 2 * prfKeyLen
  let ks ← prfPlus c skeyseed seed total
  let offA := prfKeyLen
  let offE := offA + 2 * integLen
  let offP := offE + 2 * encrLen
  let skd ← slice ks 0 offA
  let skai ← slice ks offA (offA + integLen)
  let skar ← slice ks (offA + integLen) offE
  let skei ← slice ks offE (offE + encrLen)
  let sker ← slice ks (offE + encrLen) offP
  let skpi ← slice ks offP (offP + prfKeyLen)
  let skpr ← slice ks (offP + prfKeyLen) total
  let s : IKESA := { role, suite, initiatorSPI := spii, responderSPI := spir,
                     skd, skai, skar, skei, sker, skpi, skpr }
  if suite.aead then
    return { s with aead := some (← newAEADState suite s.outboundEncrKey s.inboundEncrKey encrLen) }
  else return s

/-- The keys of the first IKE SA of a session. -/
def derive (c : Crypto) (suite : Suite) (role : Role) (spii spir : UInt64)
    (nonceI nonceR dhShared : Bytes) : Go IKESA :=
  if nonceI.length < minNonceLen ∨ nonceR.length < minNonceLen then
    fail "ikesa: nonce shorter than the RFC 7296 §2.10 minimum of 16 bytes"
  else if dhShared.length = 0 then fail "ikesa: empty DH shared secret"
  else deriveFromSKEYSEED c suite role spii spir nonceI nonceR (prf c (nonceI ++ nonceR) dhShared)

/-- The keys of an IKE SA that replaces one with the given SK_d. -/
def deriveRekeyIKE (c : Crypto) (suite : Suite) (oldSKd : Bytes) (role : Role) (spii spir : UInt64)
    (nonceI nonceR dhShared : Bytes) : Go IKESA :=
  if oldSKd.length = 0 then fail "ikesa: empty old SK_d"
  else if nonceI.length < minNonceLen ∨ nonceR.length < minNonceLen then
    fail "ikesa: rekey nonce shorter than the RFC 7296 §2.10 minimum of 16 bytes"
  else if dhShared.length = 0 then fail "ikesa: empty rekey DH shared secret"
  else deriveFromSKEYSEED c suite role spii spir nonceI nonceR
    (prf c oldSKd (dhShared ++ (nonceI ++ nonceR)))

/-! ## Child SA keys -/

/-- The keys of a Child SA, named from the side of the initiator of the exchange. -/
structure ChildKeys where
  encrIR : Bytes
  integIR : Bytes
  encrRI : Bytes
  integRI : Bytes
deriving Repr, DecidableEq

/-- KEYMAT = prf+(SK_d, g^ir | Ni | Nr), where the secret is empty without a new
exchange. -/
def IKESA.deriveChildKeys (c : Crypto) (s : IKESA) (dhShared nonceI nonceR : Bytes)
    (encrLen integLen : Nat) : Go ChildKeys := do
  let ks ← prfPlus c s.skd (dhShared ++ (nonceI ++ nonceR)) (2 * (encrLen + integLen))
  let half := encrLen + integLen
  let encrIR ← slice ks 0 encrLen
  let integIR ← slice ks encrLen half
  let encrRI ← slice ks half (half + encrLen)
  let integRI ← slice ks (half + encrLen) (2 * half)
  return { encrIR, integIR, encrRI, integRI }

/-! ## Both sides of a Diffie-Hellman exchange -/

/-- Padding makes up for the leading zeros that `big.Int.Bytes` leaves out. -/
theorem leftPad_natBytes {n v : Nat} (h : v < 256 ^ n) : leftPad (natBytes v) n = putBE n v := by
  obtain ⟨hv, heq⟩ := natBytes_eq_putBE v
  have hle := length_natBytes_le h
  have hpad := putBE_add hv (n - (natBytes v).length)
  rw [Nat.sub_add_cancel hle, ← heq] at hpad
  unfold leftPad
  split
  · rename_i hge
    rw [hpad, Nat.sub_eq_zero_of_le hge, List.replicate_zero, List.nil_append]
  · exact hpad.symm

theorem mod_modp_lt (n : Nat) : n % modp2048P < 256 ^ modp2048Len :=
  Nat.lt_trans (Nat.mod_lt _ (by decide +kernel)) (by decide +kernel)

theorem leftPad_modp (n : Nat) :
    leftPad (natBytes (n % modp2048P)) modp2048Len = putBE modp2048Len (n % modp2048P) :=
  leftPad_natBytes (mod_modp_lt n)

theorem getBE_putBE_modp (n : Nat) :
    getBE (putBE modp2048Len (n % modp2048P)) = n % modp2048P :=
  getBE_putBE_of_lt (mod_modp_lt n)

/-- Two fresh key pairs of one group agree: if each side computes a secret from
the public value of the other, it is the same. -/
theorem DH.shared_comm {c : Crypto} {group : UInt16} {r₁ r₂ : RandRead} {a b : DH} {x y : Bytes}
    (ha : newDH c group r₁ = .ok a) (hb : newDH c group r₂ = .ok b) (hx : a.shared c b.pub = .ok x)
    (hy : b.shared c a.pub = .ok y) : x = y := by
  unfold newDH at ha hb
  split at ha
  · rename_i h14
    rw [if_pos h14] at hb
    simp only [bind_eq_ok, pure_eq_ok, Except.ok.injEq] at ha hb
    obtain ⟨ba, _, rfl⟩ := ha
    obtain ⟨bb, _, rfl⟩ := hb
    simp only [DH.shared, expMod_eq, leftPad_modp, getBE_putBE_modp, length_putBE, ne_eq, not_true, if_false] at hx hy
    split at hx
    · cases hx
    · split at hy
      · cases hy
      · rw [← Except.ok.inj hx, ← Except.ok.inj hy, ← Nat.pow_mod, ← Nat.pow_mod, ← Nat.pow_mul,
          ← Nat.pow_mul, Nat.mul_comm]
  · rename_i h14
    rw [if_neg h14] at hb
    split at ha
    · rename_i h31
      rw [if_pos h31] at hb
      simp only [bind_eq_ok, pure_eq_ok, Except.ok.injEq] at ha hb
      obtain ⟨pa, _, rfl⟩ := ha
      obtain ⟨pb, _, rfl⟩ := hb
      simp only [DH.shared, c.x25519Public_length, ne_eq, not_true, if_false] at hx hy
      rw [c.x25519_comm] at hx
      rw [hx] at hy
      exact Except.ok.inj hy
    · cases ha

/-! ## Lengths of derived keys -/

theorem prfPlusFrom_ok (c : Crypto) (key seed : Bytes) {keyLen : Nat} :
    ∀ (left i : Nat) (prev out : Bytes), keyLen ≤ out.length + 32 * left →
      ∃ ks, prfPlusFrom c key seed keyLen left i prev out = .ok ks ∧ ks.length = keyLen
  | left, i, prev, out, h => by
      unfold prfPlusFrom
      by_cases hout : keyLen ≤ out.length
      · rw [if_pos hout, slice_ok (Nat.zero_le _) hout]
        exact ⟨_, rfl, by simp [hout]⟩
      · rw [if_neg hout]
        cases left with
        | zero => omega
        | succ left =>
            apply prfPlusFrom_ok c key seed left
            rw [List.length_append, c.hmac_length]
            omega

theorem prfPlus_ok (c : Crypto) (key seed : Bytes) {keyLen : Nat} (h : keyLen ≤ 8160) :
    ∃ ks, prfPlus c key seed keyLen = .ok ks ∧ ks.length = keyLen :=
  prfPlusFrom_ok c key seed 255 1 [] [] (by simpa using h)

/-- Keys of any length the expansion can give are derived without failure. -/
theorem IKESA.deriveChildKeys_ok (c : Crypto) (s : IKESA) (dhShared nonceI nonceR : Bytes)
    {encrLen integLen : Nat} (h : 2 * (encrLen + integLen) ≤ 8160) :
    ∃ keys, s.deriveChildKeys c dhShared nonceI nonceR encrLen integLen = .ok keys := by
  obtain ⟨ks, hks, hlen⟩ := prfPlus_ok c s.skd (dhShared ++ (nonceI ++ nonceR)) h
  have hcut (i j : Nat) (hij : i ≤ j) (hj : j ≤ ks.length) : ∃ k, slice ks i j = .ok k :=
    ⟨_, slice_ok hij hj⟩
  obtain ⟨k₁, hk₁⟩ := hcut 0 encrLen (by omega) (by omega)
  obtain ⟨k₂, hk₂⟩ := hcut encrLen (encrLen + integLen) (by omega) (by omega)
  obtain ⟨k₃, hk₃⟩ := hcut (encrLen + integLen) (encrLen + integLen + encrLen) (by omega) (by omega)
  obtain ⟨k₄, hk₄⟩ := hcut (encrLen + integLen + encrLen) (2 * (encrLen + integLen)) (by omega)
    (by omega)
  refine ⟨{ encrIR := k₁, integIR := k₂, encrRI := k₃, integRI := k₄ }, ?_⟩
  simp only [IKESA.deriveChildKeys, hks, ok_bind, hk₁, hk₂, hk₃, hk₄, pure_eq_ok]

theorem DH.shared_safe (c : Crypto) (d : DH) (pub : Bytes) : Safe (d.shared c pub) := by
  unfold DH.shared
  split
  · split
    · exact Safe.fail _
    · dsimp only
      split
      · exact Safe.fail _
      · exact Safe.ok _
  · split
    · exact Safe.fail _
    · split
      · exact Safe.ok _
      · exact Safe.fail _

/-! ## Two ends of one SA -/

/-- The AEAD state of an SA follows from its keys. -/
def IKESA.aeadState (s : IKESA) : Option AEADState :=
  s.suite.aeadKind.map fun kind =>
    { outAEAD := { kind, key := s.outboundEncrKey.take 32 }
      inAEAD := { kind, key := s.inboundEncrKey.take 32 }
      outSalt := s.outboundEncrKey.drop 32
      inSalt := s.inboundEncrKey.drop 32 }

/-- An SA as derivation leaves it, up to its IV counter: its keys have the lengths
of the suite and its AEAD state is the one of its keys. -/
structure IKESA.WF (s : IKESA) : Prop where
  skd : s.skd.length = prfKeyLen
  skei : s.skei.length = s.suite.keyLens.1
  sker : s.sker.length = s.suite.keyLens.1
  aead : s.aead = s.aeadState

/-- The two ends of one SA: the same keys and opposite roles. -/
structure Mirror (a b : IKESA) : Prop where
  left : a.WF
  right : b.WF
  role : a.role = b.role.other
  suite : a.suite = b.suite
  initiatorSPI : a.initiatorSPI = b.initiatorSPI
  responderSPI : a.responderSPI = b.responderSPI
  skd : a.skd = b.skd
  skai : a.skai = b.skai
  skar : a.skar = b.skar
  skei : a.skei = b.skei
  sker : a.sker = b.sker
  skpi : a.skpi = b.skpi
  skpr : a.skpr = b.skpr

@[simp] theorem Role.other_other (r : Role) : r.other.other = r := by
  cases r <;> rfl

theorem Mirror.symm {a b : IKESA} (h : Mirror a b) : Mirror b a where
  left := h.right
  right := h.left
  role := by rw [h.role, Role.other_other]
  suite := h.suite.symm
  initiatorSPI := h.initiatorSPI.symm
  responderSPI := h.responderSPI.symm
  skd := h.skd.symm
  skai := h.skai.symm
  skar := h.skar.symm
  skei := h.skei.symm
  sker := h.sker.symm
  skpi := h.skpi.symm
  skpr := h.skpr.symm

/-- The IV counters do not matter to the two ends. -/
theorem Mirror.withSeq {a b : IKESA} (h : Mirror a b) (na nb : UInt64) :
    Mirror { a with skSeq := na } { b with skSeq := nb } where
  left := ⟨h.left.skd, h.left.skei, h.left.sker, h.left.aead⟩
  right := ⟨h.right.skd, h.right.skei, h.right.sker, h.right.aead⟩
  role := h.role
  suite := h.suite
  initiatorSPI := h.initiatorSPI
  responderSPI := h.responderSPI
  skd := h.skd
  skai := h.skai
  skar := h.skar
  skei := h.skei
  sker := h.sker
  skpi := h.skpi
  skpr := h.skpr

/-- What one end sends with, the other receives with. -/
theorem Mirror.outboundEncrKey {a b : IKESA} (h : Mirror a b) :
    a.outboundEncrKey = b.inboundEncrKey := by
  simp only [IKESA.outboundEncrKey, IKESA.inboundEncrKey, h.role, h.skei, h.sker]
  cases b.role <;> rfl

theorem Mirror.outboundIntegKey {a b : IKESA} (h : Mirror a b) :
    a.outboundIntegKey = b.inboundIntegKey := by
  simp only [IKESA.outboundIntegKey, IKESA.inboundIntegKey, h.role, h.skai, h.skar]
  cases b.role <;> rfl

theorem IKESA.WF.length_encrKey {s : IKESA} (h : s.WF) :
    s.outboundEncrKey.length = s.suite.keyLens.1 ∧ s.inboundEncrKey.length = s.suite.keyLens.1 := by
  unfold IKESA.outboundEncrKey IKESA.inboundEncrKey
  cases s.role <;> exact ⟨by simp [h.skei, h.sker], by simp [h.skei, h.sker]⟩

theorem newAEADState_ok {suite : Suite} {kind : AEADKind} (out inb : Bytes)
    (hk : suite.aeadKind = some kind) (ho : out.length = 36) (hi : inb.length = 36) :
    newAEADState suite out inb 36 = .ok
      { outAEAD := { kind, key := out.take 32 }, inAEAD := { kind, key := inb.take 32 },
        outSalt := out.drop 32, inSalt := inb.drop 32 } := by
  have hnew (key : Bytes) (h : key.length = 32) : newAEAD suite key = .ok { kind, key } := by
    simp only [newAEAD, hk]
    exact newAEADOf_ok h
  simp only [newAEADState, aeadSaltLen]
  rw [slice_ok (by omega) (by omega), ok_bind, List.drop_zero, hnew _ (by simp; omega), wrapErr_ok,
    ok_bind, slice_ok (by omega) (by omega), ok_bind, List.drop_zero, hnew _ (by simp; omega),
    wrapErr_ok, ok_bind, sliceFrom_ok (by omega), ok_bind, sliceFrom_ok (by omega)]
  rfl

/-- Derivation succeeds for either role, and the two results are the two ends of
one SA. -/
theorem deriveFromSKEYSEED_ok (c : Crypto) (suite : Suite) (spii spir : UInt64)
    (nonceI nonceR skeyseed : Bytes) :
    ∃ sa : Role → IKESA, (∀ r, Mirror (sa r) (sa r.other)) ∧ ∀ r,
      deriveFromSKEYSEED c suite r spii spir nonceI nonceR skeyseed = .ok (sa r) ∧
      (sa r).role = r ∧ (sa r).suite = suite ∧ (sa r).initiatorSPI = spii ∧
      (sa r).responderSPI = spir := by
  rcases hlens : suite.keyLens with ⟨encrLen, integLen⟩
  have hbound : encrLen ≤ 36 ∧ integLen ≤ 32 := by
    unfold Suite.keyLens at hlens
    split at hlens <;> cases hlens <;> decide
  obtain ⟨ks, hks, hlen⟩ := prfPlus_ok c skeyseed
    (nonceI ++ (nonceR ++ (putUint64 spii ++ putUint64 spir)))
    (show prfKeyLen + 2 * integLen + 2 * encrLen + 2 * prfKeyLen ≤ 8160 by rw [prfKeyLen]; omega)
  have hcut (i j : Nat) (hij : i ≤ j) (hj : j ≤ ks.length) :
      ∃ k, slice ks i j = .ok k ∧ k.length = j - i := by
    have hok := slice_ok hij hj
    exact ⟨_, hok, length_slice hok⟩
  rw [prfKeyLen] at hlen
  obtain ⟨skd, hskd, hnd⟩ := hcut 0 32 (by omega) (by omega)
  obtain ⟨skai, hskai, -⟩ := hcut 32 (32 + integLen) (by omega) (by omega)
  obtain ⟨skar, hskar, -⟩ := hcut (32 + integLen) (32 + 2 * integLen) (by omega) (by omega)
  obtain ⟨skei, hskei, hnei⟩ := hcut (32 + 2 * integLen) (32 + 2 * integLen + encrLen) (by omega)
    (by omega)
  obtain ⟨sker, hsker, hner⟩ := hcut (32 + 2 * integLen + encrLen) (32 + 2 * integLen + 2 * encrLen)
    (by omega) (by omega)
  obtain ⟨skpi, hskpi, -⟩ := hcut (32 + 2 * integLen + 2 * encrLen)
    (32 + 2 * integLen + 2 * encrLen + 32) (by omega) (by omega)
  obtain ⟨skpr, hskpr, -⟩ := hcut (32 + 2 * integLen + 2 * encrLen + 32)
    (32 + 2 * integLen + 2 * encrLen + 2 * 32) (by omega) (by omega)
  let bare (r : Role) : IKESA := { role := r, suite, initiatorSPI := spii, responderSPI := spir,
                                   skd, skai, skar, skei, sker, skpi, skpr }
  let sa (r : Role) : IKESA := { bare r with aead := (bare r).aeadState }
  have hwf (r : Role) : (sa r).WF := by
    refine ⟨hnd, ?_, ?_, rfl⟩
    · simp only [sa, bare, hlens, hnei]; omega
    · simp only [sa, bare, hlens, hner]; omega
  refine ⟨sa, fun r => ⟨hwf r, hwf r.other, (Role.other_other r).symm, rfl, rfl, rfl, rfl, rfl, rfl,
    rfl, rfl, rfl, rfl⟩, fun r => ⟨?_, rfl, rfl, rfl, rfl⟩⟩
  simp only [deriveFromSKEYSEED, hlens]
  rw [hks, ok_bind]
  simp only [prfKeyLen, hskd, hskai, hskar, hskei, hsker, hskpi, hskpr, ok_bind]
  cases hkind : suite.aeadKind with
  | none =>
      have haead : suite.aead = false := by rw [Suite.aead, hkind]; rfl
      simp only [haead, sa, IKESA.aeadState, bare, hkind]
      rfl
  | some kind =>
      have haead : suite.aead = true := by rw [Suite.aead, hkind]; rfl
      have henc : encrLen = 36 := by
        rw [Suite.keyLens, haead] at hlens
        exact (Prod.mk.inj hlens).1.symm
      have hkeys := (hwf r).length_encrKey
      have hstate := newAEADState_ok (bare r).outboundEncrKey (bare r).inboundEncrKey hkind (hkeys.1.trans (by simp [sa, bare, hlens, henc]))
        (hkeys.2.trans (by simp [sa, bare, hlens, henc]))
      rw [if_pos haead, henc]
      simp only [bare] at hstate
      rw [hstate, ok_bind]
      simp only [sa, IKESA.aeadState, bare, hkind]
      rfl

/-- Two results of the expansion for opposite roles. -/
theorem mirror_of_deriveFromSKEYSEED {c : Crypto} {suite : Suite} {role : Role} {spii spir : UInt64}
    {nonceI nonceR skeyseed : Bytes} {a b : IKESA}
    (ha : deriveFromSKEYSEED c suite role spii spir nonceI nonceR skeyseed = .ok a)
    (hb : deriveFromSKEYSEED c suite role.other spii spir nonceI nonceR skeyseed = .ok b) :
    Mirror a b := by
  obtain ⟨sa, hmirror, hsa⟩ := deriveFromSKEYSEED_ok c suite spii spir nonceI nonceR skeyseed
  rw [(hsa role).1, Except.ok.injEq] at ha
  rw [(hsa role.other).1, Except.ok.injEq] at hb
  subst ha hb
  exact hmirror role

theorem derive_mirror {c : Crypto} {suite : Suite} {role : Role} {spii spir : UInt64}
    {nonceI nonceR dhShared : Bytes} {a b : IKESA}
    (ha : derive c suite role spii spir nonceI nonceR dhShared = .ok a)
    (hb : derive c suite role.other spii spir nonceI nonceR dhShared = .ok b) : Mirror a b := by
  unfold derive at ha hb
  split at ha
  · cases ha
  · split at ha
    · cases ha
    · rename_i hn hd
      rw [if_neg hn, if_neg hd] at hb
      exact mirror_of_deriveFromSKEYSEED ha hb

/-- Whether a rekey derivation succeeds does not depend on the role, and its two
results are the two ends of one SA. -/
theorem deriveRekeyIKE_ok {c : Crypto} {suite : Suite} {oldSKd : Bytes} {role : Role}
    {spii spir : UInt64} {nonceI nonceR dhShared : Bytes} {a : IKESA}
    (ha : deriveRekeyIKE c suite oldSKd role spii spir nonceI nonceR dhShared = .ok a) :
    a.role = role ∧ a.suite = suite ∧ a.initiatorSPI = spii ∧ a.responderSPI = spir ∧
      ∃ b, deriveRekeyIKE c suite oldSKd role.other spii spir nonceI nonceR dhShared = .ok b ∧
        Mirror a b := by
  unfold deriveRekeyIKE at ha ⊢
  split at ha
  · cases ha
  · split at ha
    · cases ha
    · split at ha
      · cases ha
      · rename_i hk hn hd
        obtain ⟨sa, hmirror, hsa⟩ := deriveFromSKEYSEED_ok c suite spii spir nonceI nonceR
          (prf c oldSKd (dhShared ++ (nonceI ++ nonceR)))
        obtain ⟨hder, hrole, hsuite, hspii, hspir⟩ := hsa role
        rw [hder, Except.ok.injEq] at ha
        subst ha
        refine ⟨hrole, hsuite, hspii, hspir, sa role.other, ?_, hmirror role⟩
        rw [if_neg hk, if_neg hn, if_neg hd, (hsa role.other).1]

/-- What a derivation returns: an SA for the role and the SPIs it was asked for, that has
not encrypted anything yet. -/
structure IKESA.New (sa : IKESA) (role : Role) (spii spir : UInt64) : Prop where
  wf : sa.WF
  role : sa.role = role
  initiatorSPI : sa.initiatorSPI = spii
  responderSPI : sa.responderSPI = spir
  skSeq : sa.skSeq = 0

theorem new_of_deriveFromSKEYSEED {c : Crypto} {suite : Suite} {role : Role} {spii spir : UInt64}
    {nonceI nonceR skeyseed : Bytes} {a : IKESA}
    (ha : deriveFromSKEYSEED c suite role spii spir nonceI nonceR skeyseed = .ok a) :
    a.New role spii spir := by
  have hseq : a.skSeq = 0 := by
    unfold deriveFromSKEYSEED at ha
    simp only [bind_eq_ok] at ha
    obtain ⟨_, -, _, -, _, -, _, -, _, -, _, -, _, -, _, -, ha⟩ := ha
    split at ha
    · obtain ⟨st, -, ha⟩ := bind_eq_ok.mp ha
      cases ha
      rfl
    · cases ha
      rfl
  obtain ⟨sa, hmirror, hsa⟩ := deriveFromSKEYSEED_ok c suite spii spir nonceI nonceR skeyseed
  obtain ⟨hder, hrole, -, hspii, hspir⟩ := hsa role
  cases hder.symm.trans ha
  exact ⟨(hmirror role).left, hrole, hspii, hspir, hseq⟩

theorem new_of_derive {c : Crypto} {suite : Suite} {role : Role} {spii spir : UInt64}
    {nonceI nonceR dhShared : Bytes} {a : IKESA}
    (ha : derive c suite role spii spir nonceI nonceR dhShared = .ok a) : a.New role spii spir := by
  unfold derive at ha
  split at ha
  · cases ha
  split at ha
  · cases ha
  · exact new_of_deriveFromSKEYSEED ha

theorem new_of_deriveRekeyIKE {c : Crypto} {suite : Suite} {oldSKd : Bytes} {role : Role}
    {spii spir : UInt64} {nonceI nonceR dhShared : Bytes} {a : IKESA}
    (ha : deriveRekeyIKE c suite oldSKd role spii spir nonceI nonceR dhShared = .ok a) :
    a.New role spii spir := by
  unfold deriveRekeyIKE at ha
  split at ha
  · cases ha
  split at ha
  · cases ha
  split at ha
  · cases ha
  · exact new_of_deriveFromSKEYSEED ha

end GoIpsec.Ikesa
