import GoIpsec.Lib.Go

/-!
# Cryptographic primitives

The primitives a protocol implementation takes from its standard library: a MAC,
a block cipher in CBC mode, two AEAD constructions, an elliptic curve key
agreement, and random reads.

Nothing is assumed of them beyond what makes an honest exchange work.  A
`Crypto` is any choice of functions with these laws: outputs have their fixed
lengths, decryption inverts encryption, and the two sides of a key agreement
compute the same secret.  Secrecy and unforgeability are not functional laws.  A
statement that needs them says so for the messages it speaks of.
-/

namespace Golang

/-- The AEAD constructions. -/
inductive AEADKind where
  | aesGCM
  | chacha20Poly1305
deriving Repr, DecidableEq

structure Crypto where
  /-- HMAC-SHA-256 of `data` under `key`. -/
  hmac : (key data : Bytes) → Bytes
  cbcEncrypt : (key iv data : Bytes) → Bytes
  cbcDecrypt : (key iv data : Bytes) → Bytes
  aeadSeal : AEADKind → (key nonce plaintext additional : Bytes) → Bytes
  aeadOpen : AEADKind → (key nonce ciphertext additional : Bytes) → Option Bytes
  x25519Public : (priv : Bytes) → Bytes
  /-- The shared secret, or nothing for a point of low order. -/
  x25519 : (priv pub : Bytes) → Option Bytes
  hmac_length : ∀ key data, (hmac key data).length = 32
  cbcEncrypt_length : ∀ key iv data, (cbcEncrypt key iv data).length = data.length
  cbcDecrypt_length : ∀ key iv data, (cbcDecrypt key iv data).length = data.length
  cbcDecrypt_cbcEncrypt : ∀ key iv data, data.length % 16 = 0 →
    cbcDecrypt key iv (cbcEncrypt key iv data) = data
  aeadSeal_length : ∀ kind key nonce plaintext additional,
    (aeadSeal kind key nonce plaintext additional).length = plaintext.length + 16
  aeadOpen_length : ∀ kind key nonce ciphertext additional plaintext,
    aeadOpen kind key nonce ciphertext additional = some plaintext →
      ciphertext.length = plaintext.length + 16
  aeadOpen_aeadSeal : ∀ kind key nonce plaintext additional,
    aeadOpen kind key nonce (aeadSeal kind key nonce plaintext additional) additional =
      some plaintext
  x25519Public_length : ∀ priv, (x25519Public priv).length = 32
  x25519_length : ∀ priv pub secret, x25519 priv pub = some secret → secret.length = 32
  x25519_comm : ∀ a b, x25519 a (x25519Public b) = x25519 b (x25519Public a)

/-! ## Calls into the library -/

/-- `aes.NewCipher`, as far as it can fail. -/
def aesNewCipher (key : Bytes) : Go Unit :=
  let n := key.length
  if n = 16 ∨ n = 24 ∨ n = 32 then .ok () else fail s!"crypto/aes: invalid key size {n}"

/-- An AEAD instance: a construction and its key. -/
structure AEAD where
  kind : AEADKind
  key : Bytes
deriving Repr, DecidableEq

/-- `cipher.NewGCM` over `aes.NewCipher`, or `chacha20poly1305.New`. -/
def newAEADOf (kind : AEADKind) (key : Bytes) : Go AEAD :=
  match kind with
  | .aesGCM => do
      aesNewCipher key
      return { kind, key }
  | .chacha20Poly1305 =>
      if key.length = 32 then .ok { kind, key } else fail "chacha20poly1305: bad key length"

theorem newAEADOf_ok {kind : AEADKind} {key : Bytes} (h : key.length = 32) :
    newAEADOf kind key = .ok { kind, key } := by
  cases kind with
  | aesGCM => simp [newAEADOf, aesNewCipher, h]
  | chacha20Poly1305 => simp [newAEADOf, h]

namespace Crypto

variable (c : Crypto)

/-- `CryptBlocks` of a CBC encrypter.  The IV is one block and the data is whole
blocks, else it panics. -/
def encryptBlocks (key iv data : Bytes) : Go Bytes :=
  if iv.length = 16 ∧ data.length % 16 = 0 then .ok (c.cbcEncrypt key iv data)
  else .error .panic

/-- `CryptBlocks` of a CBC decrypter. -/
def decryptBlocks (key iv data : Bytes) : Go Bytes :=
  if iv.length = 16 ∧ data.length % 16 = 0 then .ok (c.cbcDecrypt key iv data)
  else .error .panic

/-- `Seal`, which panics on a nonce that is not 12 octets. -/
def sealWith (a : AEAD) (nonce plaintext additional : Bytes) : Go Bytes :=
  if nonce.length = 12 then .ok (c.aeadSeal a.kind a.key nonce plaintext additional)
  else .error .panic

/-- `Open`, which panics on a nonce that is not 12 octets. -/
def openWith (a : AEAD) (nonce ciphertext additional : Bytes) : Go (Option Bytes) :=
  if nonce.length = 12 then .ok (c.aeadOpen a.kind a.key nonce ciphertext additional)
  else .error .panic

end Crypto

/-! ## Modular exponentiation -/

/-- Square and multiply, with a bound on the bits of the exponent. -/
def expModFuel (b m : Nat) : Nat → Nat → Nat
  | 0, _ => 1 % m
  | fuel + 1, e =>
      let h := expModFuel b m fuel (e / 2)
      if e % 2 = 0 then h * h % m else h * h * b % m

/-- `b ^ e mod m`. -/
def expMod (b e m : Nat) : Nat := expModFuel b m (e.log2 + 1) e

theorem expModFuel_eq (b m : Nat) :
    ∀ {fuel e : Nat}, e < 2 ^ fuel → expModFuel b m fuel e = b ^ e % m
  | 0, e, h => by
      obtain rfl : e = 0 := by omega
      rw [expModFuel, Nat.pow_zero]
  | fuel + 1, e, h => by
      have ih : expModFuel b m fuel (e / 2) = b ^ (e / 2) % m :=
        expModFuel_eq b m (by rw [Nat.pow_succ] at h; omega)
      simp only [expModFuel, ih]
      rcases Nat.mod_two_eq_zero_or_one e with he | he
      · rw [if_pos he, ← Nat.mul_mod, ← Nat.pow_add]
        congr 2
        omega
      · have hsum : b ^ e = b ^ (e / 2) * b ^ (e / 2) * b := by
          rw [← Nat.pow_add, ← Nat.pow_succ]
          congr 1
          omega
        rw [if_neg (by omega), hsum, Nat.mul_mod, ← Nat.mul_mod (b ^ (e / 2)), ← Nat.mul_mod]

theorem expMod_eq (b e m : Nat) : expMod b e m = b ^ e % m :=
  expModFuel_eq b m Nat.lt_log2_self

/-! ## Random reads -/

/-- The outcome of reading the random source: it fails, or gives octets. -/
abbrev RandRead := Option (Nat → UInt8)

/-- `io.ReadFull(rand.Reader, b)` for `n` octets. -/
def RandRead.full (r : RandRead) (n : Nat) : Go Bytes :=
  match r with
  | none => fail "crypto/rand: read failed"
  | some f => .ok ((List.range n).map f)

theorem RandRead.full_length {r : RandRead} {n : Nat} {b : Bytes} (h : r.full n = .ok b) :
    b.length = n := by
  cases r with
  | none => cases h
  | some f =>
      cases h
      simp

theorem RandRead.full_ok {r : RandRead} (h : r.isSome = true) (n : Nat) : ∃ b, r.full n = .ok b := by
  obtain ⟨f, rfl⟩ := Option.isSome_iff_exists.mp h
  exact ⟨_, rfl⟩

theorem RandRead.isSome_of_full {r : RandRead} {n : Nat} {b : Bytes} (h : r.full n = .ok b) :
    r.isSome = true := by
  cases r with
  | none => cases h
  | some f => rfl

theorem RandRead.full_safe (r : RandRead) (n : Nat) : Safe (r.full n) := by
  cases r with
  | none => exact Safe.fail _
  | some f => exact Safe.ok _

/-! ## An instance

A choice of functions that meets the laws and can be evaluated.  It protects
nothing. -/

namespace Crypto.Sample

/-- Cut or fill with zeros to 32 octets. -/
def fit (b : Bytes) : Bytes := (b ++ List.replicate 32 0).take 32

def digest (key data : Bytes) : Bytes :=
  List.replicate 32 ((key ++ data).foldl (fun acc x => acc * 31 + x) 7)

def tag (key nonce plaintext additional : Bytes) : Bytes :=
  (digest (key ++ nonce) (plaintext ++ additional)).take 16

@[simp] theorem length_fit (b : Bytes) : (fit b).length = 32 := by
  simp [fit]

@[simp] theorem length_tag (key nonce plaintext additional : Bytes) :
    (tag key nonce plaintext additional).length = 16 := by
  simp [tag, digest]

theorem fit_fit (b : Bytes) : fit (fit b) = fit b := by
  conv_lhs => rw [fit]
  rw [List.take_append_of_le_length (by simp), List.take_of_length_le (by simp)]

end Crypto.Sample

open Crypto.Sample in
/-- A sample choice of primitives. -/
def Crypto.sample : Crypto where
  hmac := digest
  cbcEncrypt _ _ data := data
  cbcDecrypt _ _ data := data
  aeadSeal _ key nonce plaintext additional := plaintext ++ tag key nonce plaintext additional
  aeadOpen _ key nonce ciphertext additional :=
    let plaintext := ciphertext.take (ciphertext.length - 16)
    if ciphertext = plaintext ++ tag key nonce plaintext additional then some plaintext else none
  x25519Public priv := fit priv
  x25519 priv pub := some (List.zipWith (· ^^^ ·) (fit priv) (fit pub))
  hmac_length key data := by simp [digest]
  cbcEncrypt_length _ _ _ := rfl
  cbcDecrypt_length _ _ _ := rfl
  cbcDecrypt_cbcEncrypt _ _ _ _ := rfl
  aeadSeal_length _ key nonce plaintext additional := by simp
  aeadOpen_length _ key nonce ciphertext additional plaintext h := by
    simp only [Option.ite_none_right_eq_some, Option.some.injEq] at h
    obtain ⟨he, hp⟩ := h
    rw [he, hp]
    simp
  aeadOpen_aeadSeal _ key nonce plaintext additional := by
    simp
  x25519Public_length _ := length_fit _
  x25519_length priv pub secret h := by
    cases h
    simp
  x25519_comm a b := by
    rw [fit_fit, fit_fit, List.zipWith_comm_of_comm fun x y => UInt8.xor_comm x y]

end Golang
