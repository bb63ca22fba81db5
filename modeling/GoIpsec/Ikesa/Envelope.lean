import GoIpsec.Ikesa.Keys

/-!
# The SK envelope

The body of the encrypted payload and its place in the message.  The CBC suite
appends a MAC over the whole message.  The AEAD suites seal the body with
everything in front of it as additional data, so a message is protected in two
stages: `encryptToSK` lays out a body of the right length, and `finalizeSK`
completes it in the fully encoded message.

`sealBody` says what an envelope is: the body the holder of the keys sends behind
the given octets, for any padding it likes.  `openSK` inverts it (`openSK_sealBody`)
and our own two stages produce it (`finalizeSK_encryptToSK`).
-/

namespace GoIpsec.Ikesa

open Golang

def ikeHdrLen : Nat := 28
def genericHdrLen : Nat := 4

/-! ## Outbound -/

/-- The self-describing padding to whole blocks: the pad octets and their number. -/
def cbcPad (n : Nat) : Bytes :=
  let padLen := (aesBlock - (n + 1) % aesBlock) % aesBlock
  (List.range padLen).map (fun i => UInt8.ofNat (i + 1)) ++ [UInt8.ofNat padLen]

/-- IV | ciphertext. -/
def aesCBCEncrypt (c : Crypto) (key plaintext : Bytes) (rand : RandRead) : Go Bytes :=
  if plaintext.length % aesBlock ≠ 0 then fail "ikesa: plaintext not block-aligned"
  else do
    aesNewCipher key
    let iv ← rand.full aesBlock
    let ct ← c.encryptBlocks key iv plaintext
    return iv ++ ct

/-- The body of an encrypted payload, still to be completed by `finalizeSK`.  An
AEAD suite uses up a value of the IV counter. -/
def IKESA.encryptToSK (c : Crypto) (s : IKESA) (rand : RandRead) (plaintext : Bytes) :
    Go Bytes × IKESA :=
  if s.suite.aead then
    let seq := s.skSeq + 1
    -- IV(8) | plaintext | padLen(=0) | zeroed tag(16)
    (.ok (putUint64 seq ++ (plaintext ++ ([0] ++ List.replicate aeadTagLen 0))),
      { s with skSeq := seq })
  else
    -- IV(16) | AES-CBC(plaintext | pad | padLen) | zeroed ICV(16)
    (do
      let ivCT ← aesCBCEncrypt c s.outboundEncrKey (plaintext ++ cbcPad plaintext.length) rand
      return ivCT ++ List.replicate integICVLen 0, s)

/-- Write the message ICV into the trailing octets of `msg`. -/
def IKESA.checksum (c : Crypto) (s : IKESA) (msg : Bytes) : Go Bytes :=
  if msg.length < integICVLen then fail "ikesa: message shorter than ICV"
  else do
    let data ← slice msg 0 (msg.length - integICVLen)
    return data ++ integ c s.outboundIntegKey data

/-- Complete the message `raw`, whose last `skDataLen` octets are what
`encryptToSK` laid out. -/
def IKESA.finalizeSK (c : Crypto) (s : IKESA) (raw : Bytes) (skDataLen : Nat) : Go Bytes :=
  if s.suite.aead then
    let skStart := raw.length - skDataLen
    if skStart < ikeHdrLen + genericHdrLen ∨ skDataLen < aeadIVLen + 1 + aeadTagLen then
      fail "ikesa: SK message too short to finalize"
    else
      match s.aead with
      | none => .error .panic
      | some st => do
          let aad ← slice raw 0 skStart
          let iv ← slice raw skStart (skStart + aeadIVLen)
          let pt ← slice raw (skStart + aeadIVLen) (raw.length - aeadTagLen)
          let ct ← c.sealWith st.outAEAD (st.outSalt ++ iv) pt aad
          return aad ++ (iv ++ ct)
  else s.checksum c raw

/-! ## Inbound -/

/-- Strip the trailing Pad Length octet and the padding in front of it. -/
def stripPad (padded : Bytes) : Go Bytes := do
  let n := padded.length
  let padLen := (← index padded (n - 1)).toNat
  if padLen + 1 > n then fail "ikesa: SK pad length out of range"
  else slice padded 0 (n - padLen - 1)

def IKESA.verifyChecksum (c : Crypto) (s : IKESA) (msg : Bytes) : Bool :=
  if msg.length < integICVLen then false
  else
    let data := msg.take (msg.length - integICVLen)
    msg.drop (msg.length - integICVLen) == integ c s.inboundIntegKey data

def aesCBCDecrypt (c : Crypto) (key ivAndCT : Bytes) : Go Bytes :=
  if ivAndCT.length < aesBlock then fail "ikesa: SK ciphertext shorter than IV"
  else do
    let iv ← slice ivAndCT 0 aesBlock
    let ct ← sliceFrom ivAndCT aesBlock
    if ct.length = 0 ∨ ct.length % aesBlock ≠ 0 then fail "ikesa: SK ciphertext not block-aligned"
    else
      aesNewCipher key
      c.decryptBlocks key iv ct

def IKESA.decryptSK (c : Crypto) (s : IKESA) (skData : Bytes) : Go Bytes :=
  if skData.length < integICVLen + aesBlock then fail "ikesa: SK payload too short"
  else do
    let ivCT ← slice skData 0 (skData.length - integICVLen)
    let padded ← aesCBCDecrypt c s.inboundEncrKey ivCT
    stripPad padded

/-- The AEAD check of `openSK`: what `skData` opens to in the message `raw`. -/
def IKESA.openAEAD (c : Crypto) (s : IKESA) (raw skData : Bytes) : Go (Option Bytes) :=
  match s.aead with
  | none => .error .panic
  | some st => do
      let iv ← slice skData 0 aeadIVLen
      let ct ← sliceFrom skData aeadIVLen
      let aad ← slice raw 0 (raw.length - skData.length)
      c.openWith st.inAEAD (st.inSalt ++ iv) ct aad

/-- Verify and decrypt.  `skData` is the body of the encrypted payload, which must
be the trailing octets of `raw`.  The flag says whether the integrity check
passed. -/
def IKESA.openSK (c : Crypto) (s : IKESA) (raw skData : Bytes) : Go Bytes × Bool :=
  if s.suite.aead then
    let skStart := raw.length - skData.length
    if skStart < ikeHdrLen + genericHdrLen ∨ skData.length < aeadIVLen + 1 + aeadTagLen then
      (fail "ikesa: SK payload too short", false)
    else
      match s.openAEAD c raw skData with
      | .error e => (.error e, false)
      | .ok none => (fail "ikesa: SK message AEAD authentication failed", false)
      | .ok (some padded) => (stripPad padded, true)
  else if s.verifyChecksum c raw then (s.decryptSK c skData, true)
  else (fail "ikesa: SK message ICV verification failed", false)

/-! ## What an envelope is -/

def Suite.ivLen (s : Suite) : Nat := if s.aead then aeadIVLen else aesBlock

/-- The body the holder of `s` sends behind the octets `pre` for the padded
plaintext `padded`. -/
def IKESA.sealBody (c : Crypto) (s : IKESA) (pre iv padded : Bytes) : Bytes :=
  match s.aead with
  | some st =>
      iv ++ c.aeadSeal st.outAEAD.kind st.outAEAD.key (st.outSalt ++ iv) padded pre
  | none =>
      let ivCT := iv ++ c.cbcEncrypt s.outboundEncrKey iv padded
      ivCT ++ integ c s.outboundIntegKey (pre ++ ivCT)

@[simp] theorem length_integ (c : Crypto) (key data : Bytes) : (integ c key data).length = 16 := by
  rw [integ, List.length_take, c.hmac_length]
  rfl

theorem stripPad_append {pt pad : Bytes} (h : pad.length ≤ 255) :
    stripPad (pt ++ (pad ++ [UInt8.ofNat pad.length])) = .ok pt := by
  have hlen : (pt ++ (pad ++ [UInt8.ofNat pad.length])).length = pt.length + pad.length + 1 := by
    simp
    omega
  have hlast : index (pt ++ (pad ++ [UInt8.ofNat pad.length])) (pt.length + pad.length) =
      .ok (UInt8.ofNat pad.length) := by
    rw [index_append_of_ge (by omega), index_append_of_ge (by omega), Nat.add_sub_cancel_left,
      Nat.sub_self]
    rfl
  have hpad : (UInt8.ofNat pad.length).toNat = pad.length := by rw [UInt8.toNat_ofNat']; omega
  have hend : pt.length + pad.length + 1 - pad.length - 1 = pt.length := by omega
  simp only [stripPad, hlen, Nat.add_sub_cancel, hlast, ok_bind, hpad]
  rw [if_neg (by omega), hend, slice_append_of_le (Nat.le_refl _), slice_all rfl]

theorem IKESA.WF.aead_none {s : IKESA} (h : s.WF) (ha : s.suite.aead = false) : s.aead = none := by
  rw [h.aead, IKESA.aeadState, Option.map_eq_none_iff]
  simpa [Suite.aead] using ha

theorem IKESA.WF.aead_some {s : IKESA} (h : s.WF) (ha : s.suite.aead = true) :
    ∃ kind, s.aead = some
      { outAEAD := { kind, key := s.outboundEncrKey.take 32 }
        inAEAD := { kind, key := s.inboundEncrKey.take 32 }
        outSalt := s.outboundEncrKey.drop 32
        inSalt := s.inboundEncrKey.drop 32 } ∧
      s.suite.aeadKind = some kind := by
  rw [Suite.aead, Option.isSome_iff_exists] at ha
  obtain ⟨kind, hk⟩ := ha
  exact ⟨kind, by rw [h.aead, IKESA.aeadState, hk]; rfl, hk⟩

theorem IKESA.WF.encrLen {s : IKESA} (h : s.WF) :
    s.outboundEncrKey.length = (if s.suite.aead then 36 else 32) ∧
      s.inboundEncrKey.length = (if s.suite.aead then 36 else 32) := by
  have hlens : s.suite.keyLens.1 = if s.suite.aead then 36 else 32 := by
    unfold Suite.keyLens
    cases s.suite.aead <;> rfl
  obtain ⟨ho, hi⟩ := h.length_encrKey
  exact ⟨ho.trans hlens, hi.trans hlens⟩

/-! ## Opening -/

/-- Verification of a message that ends in the MAC of what precedes it. -/
theorem Mirror.verifyChecksum {c : Crypto} {a b : IKESA} (h : Mirror a b) (data : Bytes) :
    b.verifyChecksum c (data ++ integ c a.outboundIntegKey data) = true := by
  have hlen : (data ++ integ c a.outboundIntegKey data).length - integICVLen = data.length := by
    simp [integICVLen]
  rw [IKESA.verifyChecksum, if_neg (by simp [integICVLen]), hlen, List.take_left, List.drop_left,
    h.outboundIntegKey]
  exact beq_self_eq_true _

theorem Mirror.openSK_cbc {c : Crypto} {a b : IKESA} (h : Mirror a b) (ha : a.suite.aead = false)
    (pre : Bytes) {iv pt pad : Bytes} (hiv : iv.length = 16) (hpad : pad.length ≤ 255)
    (hblocks : (pt.length + pad.length + 1) % 16 = 0) :
    let body := a.sealBody c pre iv (pt ++ (pad ++ [UInt8.ofNat pad.length]))
    b.openSK c (pre ++ body) body = (.ok pt, true) := by
  have hb : b.suite.aead = false := h.suite ▸ ha
  simp only [IKESA.sealBody, h.left.aead_none ha]
  generalize hplain : pt ++ (pad ++ [UInt8.ofNat pad.length]) = padded
  have hplen : padded.length % 16 = 0 := by rw [← hplain, ← hblocks]; simp; omega
  have hpos : 0 < padded.length := by rw [← hplain]; simp
  generalize hct : c.cbcEncrypt a.outboundEncrKey iv padded = ct
  have hctlen : ct.length = padded.length := by rw [← hct, c.cbcEncrypt_length]
  have hkey : b.inboundEncrKey.length = 32 := by
    have := h.right.encrLen.2
    rwa [hb] at this
  have hcipher : aesNewCipher b.inboundEncrKey = .ok () := by simp [aesNewCipher, hkey]
  have hdec : aesCBCDecrypt c b.inboundEncrKey (iv ++ ct) = .ok padded := by
    have hshort : ¬ (iv ++ ct).length < aesBlock := by simp [aesBlock, hiv]
    have hwhole : ¬ (ct.length = 0 ∨ ct.length % aesBlock ≠ 0) := by rw [aesBlock]; omega
    rw [aesCBCDecrypt, if_neg hshort, slice_append_of_le (by simp [aesBlock, hiv]),
      slice_all (by simp [aesBlock, hiv]), ok_bind, sliceFrom_append (by simp [aesBlock, hiv]),
      ok_bind, if_neg hwhole, hcipher, ok_bind, Crypto.decryptBlocks, if_pos ⟨hiv, by omega⟩, ← hct,
      h.outboundEncrKey, c.cbcDecrypt_cbcEncrypt _ _ _ hplen]
  generalize hicv : integ c a.outboundIntegKey (pre ++ (iv ++ ct)) = icv
  have hicvlen : icv.length = 16 := by rw [← hicv, length_integ]
  have hverify : b.verifyChecksum c (pre ++ (iv ++ ct ++ icv)) = true := by
    rw [← hicv, ← List.append_assoc]
    exact h.verifyChecksum _
  have hshort : ¬ (iv ++ ct ++ icv).length < integICVLen + aesBlock := by
    simp [integICVLen, aesBlock, hiv, hicvlen]
    omega
  have hbody : slice (iv ++ ct ++ icv) 0 ((iv ++ ct ++ icv).length - integICVLen) =
      .ok (iv ++ ct) := by
    rw [slice_append_of_le (by simp [integICVLen, hicvlen]; omega),
      slice_all (by simp [integICVLen, hicvlen]; omega)]
  rw [IKESA.openSK, if_neg (by simp [hb]), if_pos hverify, IKESA.decryptSK, if_neg hshort, hbody,
    ok_bind, hdec, ok_bind, ← hplain, stripPad_append hpad]

theorem Mirror.openSK_aead {c : Crypto} {a b : IKESA} (h : Mirror a b) (ha : a.suite.aead = true)
    {pre iv pt pad : Bytes} (hpre : 32 ≤ pre.length) (hiv : iv.length = 8) (hpad : pad.length ≤ 255) :
    let body := a.sealBody c pre iv (pt ++ (pad ++ [UInt8.ofNat pad.length]))
    b.openSK c (pre ++ body) body = (.ok pt, true) := by
  have hb : b.suite.aead = true := h.suite ▸ ha
  obtain ⟨kind, hsa, hka⟩ := h.left.aead_some ha
  obtain ⟨kind', hsb, hkb⟩ := h.right.aead_some hb
  obtain rfl : kind = kind' := by
    rw [h.suite, hkb] at hka
    exact (Option.some.inj hka).symm
  simp only [IKESA.sealBody, hsa, h.outboundEncrKey]
  generalize hplain : pt ++ (pad ++ [UInt8.ofNat pad.length]) = padded
  have hpos : 0 < padded.length := by rw [← hplain]; simp
  generalize hkey : b.inboundEncrKey.take 32 = key
  generalize hsalt : b.inboundEncrKey.drop 32 = salt
  have hsaltlen : salt.length = 4 := by
    have := h.right.encrLen.2
    rw [hb] at this
    rw [← hsalt, List.length_drop, this]
    rfl
  have hopen := c.aeadOpen_aeadSeal kind key (salt ++ iv) padded pre
  have hctlen := c.aeadSeal_length kind key (salt ++ iv) padded pre
  generalize c.aeadSeal kind key (salt ++ iv) padded pre = ct at hopen hctlen
  have hstart : (pre ++ (iv ++ ct)).length - (iv ++ ct).length = pre.length := by simp
  have hlong : ¬ (pre.length < ikeHdrLen + genericHdrLen ∨
      (iv ++ ct).length < aeadIVLen + 1 + aeadTagLen) := by
    simp [ikeHdrLen, genericHdrLen, aeadIVLen, aeadTagLen, hiv]
    omega
  have hnonce : (salt ++ iv).length = 12 := by simp [hsaltlen, hiv]
  have haead : b.openAEAD c (pre ++ (iv ++ ct)) (iv ++ ct) = .ok (some padded) := by
    simp only [IKESA.openAEAD, hsb, hkey, hsalt]
    rw [slice_append_of_le (by simp [aeadIVLen, hiv]), slice_all (by simp [aeadIVLen, hiv]), ok_bind,
      sliceFrom_append (by simp [aeadIVLen, hiv]), ok_bind, hstart,
      slice_append_of_le (Nat.le_refl _), slice_all rfl, ok_bind, Crypto.openWith, if_pos hnonce,
      hopen]
  rw [IKESA.openSK, if_pos hb, hstart, if_neg hlong, haead, ← hplain]
  exact Prod.ext (stripPad_append hpad) rfl

/-- Whatever the holder of the keys pads with, the plaintext comes out. -/
theorem Mirror.openSK_sealBody {c : Crypto} {a b : IKESA} (h : Mirror a b) {pre iv pt pad : Bytes}
    (hpre : 32 ≤ pre.length) (hiv : iv.length = a.suite.ivLen) (hpad : pad.length ≤ 255)
    (hblocks : a.suite.aead = false → (pt.length + pad.length + 1) % 16 = 0) :
    let body := a.sealBody c pre iv (pt ++ (pad ++ [UInt8.ofNat pad.length]))
    b.openSK c (pre ++ body) body = (.ok pt, true) := by
  rw [Suite.ivLen] at hiv
  cases ha : a.suite.aead with
  | false =>
      rw [ha] at hiv
      exact h.openSK_cbc ha pre hiv hpad (hblocks ha)
  | true =>
      rw [ha] at hiv
      exact h.openSK_aead ha hpre hiv hpad

/-! ## Opening does not crash -/

theorem stripPad_safe {padded : Bytes} (h : padded ≠ []) : Safe (stripPad padded) := by
  have hpos : 0 < padded.length := List.length_pos_of_ne_nil h
  unfold stripPad
  refine Safe.index_bind (by omega) fun padLen => ?_
  dsimp only
  split
  · exact Safe.fail _
  · rw [slice_ok (Nat.zero_le _) (by omega)]
    exact Safe.ok _

theorem decryptSK_safe (c : Crypto) (s : IKESA) (skData : Bytes) : Safe (s.decryptSK c skData) := by
  unfold IKESA.decryptSK
  split
  · exact Safe.fail _
  refine Safe.slice_bind (Nat.zero_le _) (Nat.sub_le _ _) fun ivCT _ => ?_
  unfold aesCBCDecrypt
  split
  · exact Safe.fail _
  rename_i hlen
  rw [aesBlock] at hlen
  rw [aesBlock, slice_ok (Nat.zero_le _) (by omega), sliceFrom_ok (by omega), ok_bind, ok_bind]
  split
  · exact Safe.fail _
  rename_i hct
  unfold aesNewCipher
  dsimp only
  split
  · have hblocks : (ivCT.drop 16).length % 16 = 0 := by omega
    rw [ok_bind, Crypto.decryptBlocks, if_pos ⟨by simp; omega, hblocks⟩]
    refine stripPad_safe fun hnil => hct (.inl ?_)
    rw [← c.cbcDecrypt_length s.inboundEncrKey ((ivCT.take 16).drop 0), hnil]
    rfl
  · exact Safe.fail _

/-- The AEAD check on a body that is long enough, in a message that holds it. -/
theorem IKESA.WF.openAEAD_ok {s : IKESA} (h : s.WF) (ha : s.suite.aead = true) (c : Crypto)
    (raw : Bytes) {skData : Bytes} (hlong : 25 ≤ skData.length) :
    ∃ o, s.openAEAD c raw skData = .ok o ∧ ∀ padded, o = some padded → padded ≠ [] := by
  obtain ⟨kind, hst, -⟩ := h.aead_some ha
  have hsalt : (s.inboundEncrKey.drop 32).length = 4 := by
    rw [List.length_drop, h.encrLen.2, ha]
    rfl
  simp only [IKESA.openAEAD, hst, aeadIVLen]
  rw [slice_ok (Nat.zero_le _) (by omega), sliceFrom_ok (by omega), slice_ok (Nat.zero_le _) (by omega),
    ok_bind, ok_bind, ok_bind, Crypto.openWith, if_pos (by simp at hsalt ⊢; omega)]
  refine ⟨_, rfl, ?_⟩
  rintro padded ho rfl
  have hlen := c.aeadOpen_length _ _ _ _ _ _ ho
  simp at hlen
  omega

theorem IKESA.WF.openSK_safe {c : Crypto} {s : IKESA} (h : s.WF) (raw skData : Bytes) :
    Safe (s.openSK c raw skData).1 := by
  unfold IKESA.openSK
  split
  · rename_i ha
    dsimp only
    split
    · exact Safe.fail _
    rename_i hlong
    simp only [aeadIVLen, aeadTagLen] at hlong
    have hlong : 25 ≤ skData.length := by omega
    obtain ⟨o, ho, hne⟩ := h.openAEAD_ok ha c raw hlong
    rw [ho]
    cases o with
    | none => exact Safe.fail _
    | some padded => exact stripPad_safe (hne padded rfl)
  · split
    · exact decryptSK_safe c s skData
    · exact Safe.fail _

/-! ## Sealing -/

/-- The padding of the CBC suite fills the last block. -/
theorem cbcPad_spec (n : Nat) :
    ∃ pad : Bytes, cbcPad n = pad ++ [UInt8.ofNat pad.length] ∧ pad.length ≤ 255 ∧
      (n + pad.length + 1) % 16 = 0 := by
  refine ⟨(List.range ((16 - (n + 1) % 16) % 16)).map (fun i => UInt8.ofNat (i + 1)), ?_, ?_, ?_⟩
  · simp [cbcPad, aesBlock]
  · simp
    omega
  · simp
    omega

theorem aesCBCEncrypt_eq_ok {c : Crypto} {key plaintext ivCT : Bytes} {rand : RandRead}
    (h : aesCBCEncrypt c key plaintext rand = .ok ivCT) :
    ∃ iv, iv.length = 16 ∧ ivCT = iv ++ c.cbcEncrypt key iv plaintext := by
  unfold aesCBCEncrypt at h
  split at h
  · cases h
  · rename_i hmod
    rw [aesBlock, not_not] at hmod
    simp only [bind_eq_ok, pure_eq_ok, Except.ok.injEq] at h
    obtain ⟨_, _, iv, hiv, ct, hct, rfl⟩ := h
    have hivlen : iv.length = 16 := RandRead.full_length hiv
    rw [Crypto.encryptBlocks, if_pos ⟨hivlen, hmod⟩, Except.ok.injEq] at hct
    exact ⟨iv, hivlen, by rw [hct]⟩

/-- The MAC replaces the zeroed trailing octets. -/
theorem IKESA.checksum_append (c : Crypto) (s : IKESA) (data : Bytes) {tail : Bytes}
    (h : tail.length = 16) :
    s.checksum c (data ++ tail) = .ok (data ++ integ c s.outboundIntegKey data) := by
  have hend : (data ++ tail).length - integICVLen = data.length := by simp [integICVLen, h]
  rw [IKESA.checksum, if_neg (by simp [integICVLen, h]), hend, slice_append_of_le (Nat.le_refl _),
    slice_all rfl]
  rfl

/-- The plaintext and the zeroed tag are sealed in place. -/
theorem IKESA.finalizeSK_aead {c : Crypto} {s : IKESA} {st : AEADState} (ha : s.suite.aead = true)
    (hst : s.aead = some st) (hsalt : st.outSalt.length = 4) {pre iv padded tag : Bytes}
    (hpre : 32 ≤ pre.length) (hiv : iv.length = 8) (hpos : 0 < padded.length)
    (htag : tag.length = 16) :
    s.finalizeSK c (pre ++ (iv ++ (padded ++ tag))) (iv ++ (padded ++ tag)).length =
      .ok (pre ++ (iv ++ c.aeadSeal st.outAEAD.kind st.outAEAD.key (st.outSalt ++ iv) padded pre)) := by
  have hstart : (pre ++ (iv ++ (padded ++ tag))).length - (iv ++ (padded ++ tag)).length =
      pre.length := by simp
  have hlong : ¬ (pre.length < ikeHdrLen + genericHdrLen ∨
      (iv ++ (padded ++ tag)).length < aeadIVLen + 1 + aeadTagLen) := by
    simp [ikeHdrLen, genericHdrLen, aeadIVLen, aeadTagLen, hiv, htag]
    omega
  have hnonce : (st.outSalt ++ iv).length = 12 := by simp [hsalt, hiv]
  have hivAt : slice (pre ++ (iv ++ (padded ++ tag))) pre.length (pre.length + aeadIVLen) = .ok iv :=
    slice_mid rfl (by rw [aeadIVLen, hiv])
  have hptAt : slice (pre ++ (iv ++ (padded ++ tag))) (pre.length + aeadIVLen)
      ((pre ++ (iv ++ (padded ++ tag))).length - aeadTagLen) = .ok padded := by
    rw [← List.append_assoc, slice_mid (by simp [aeadIVLen, hiv])
      (by simp [aeadTagLen, htag]; omega)]
  rw [IKESA.finalizeSK, if_pos ha]
  simp only [hstart]
  rw [if_neg hlong, hst]
  simp only [hivAt, hptAt, ok_bind]
  rw [slice_append_of_le (Nat.le_refl _), slice_all rfl, ok_bind, Crypto.sealWith, if_pos hnonce]
  rfl

/-- An IV of ours: under an AEAD suite it is the next value of the counter. -/
def IKESA.OwnIV (s : IKESA) (iv : Bytes) : Prop :=
  iv.length = s.suite.ivLen ∧ (s.suite.aead = true → iv = putUint64 (s.skSeq + 1))

/-- Our two stages together seal the plaintext behind whatever precedes the body
in the message. -/
theorem IKESA.finalizeSK_encryptToSK {c : Crypto} {s s' : IKESA} (hwf : s.WF) {rand : RandRead}
    {pt skData pre : Bytes} (h : s.encryptToSK c rand pt = (.ok skData, s'))
    (hpre : 32 ≤ pre.length) :
    ∃ iv pad : Bytes, s.OwnIV iv ∧ pad.length ≤ 255 ∧
      (s.suite.aead = false → (pt.length + pad.length + 1) % 16 = 0) ∧
      (s.sealBody c pre iv (pt ++ (pad ++ [UInt8.ofNat pad.length]))).length = skData.length ∧
      s.finalizeSK c (pre ++ skData) skData.length =
        .ok (pre ++ s.sealBody c pre iv (pt ++ (pad ++ [UInt8.ofNat pad.length]))) := by
  rw [IKESA.encryptToSK] at h
  cases ha : s.suite.aead with
  | false =>
      simp only [ha] at h
      obtain ⟨hdata, -⟩ := Prod.mk.inj h
      simp only [bind_eq_ok, pure_eq_ok, Except.ok.injEq] at hdata
      obtain ⟨ivCT, henc, rfl⟩ := hdata
      obtain ⟨iv, hiv, rfl⟩ := aesCBCEncrypt_eq_ok henc
      obtain ⟨pad, hpad, hle, hmod⟩ := cbcPad_spec pt.length
      refine ⟨iv, pad, ⟨by simp [Suite.ivLen, ha, aesBlock, hiv], by simp [ha]⟩, hle, fun _ => hmod, ?_, ?_⟩
      · simp [IKESA.sealBody, hwf.aead_none ha, hpad, integICVLen]
      · rw [IKESA.finalizeSK, if_neg (by simp [ha]), ← List.append_assoc,
          s.checksum_append c _ (by simp [integICVLen]), hpad]
        simp [IKESA.sealBody, hwf.aead_none ha]
  | true =>
      simp only [ha, if_true] at h
      obtain ⟨hdata, -⟩ := Prod.mk.inj h
      obtain rfl := Except.ok.inj hdata
      obtain ⟨kind, hst, -⟩ := hwf.aead_some ha
      have hsalt : (s.outboundEncrKey.drop 32).length = 4 := by
        rw [List.length_drop, hwf.encrLen.1, ha]
        rfl
      have hfinal : s.finalizeSK c
          (pre ++ (putUint64 (s.skSeq + 1) ++ ((pt ++ [0]) ++ List.replicate aeadTagLen 0))) _ = _ :=
        IKESA.finalizeSK_aead ha hst hsalt hpre (by simp) (by simp) (by simp [aeadTagLen])
      refine ⟨putUint64 (s.skSeq + 1), [], ⟨by simp [Suite.ivLen, ha, aeadIVLen], fun _ => rfl⟩, by simp,
        by simp, ?_, ?_⟩
      · simp [IKESA.sealBody, hst, c.aeadSeal_length, aeadTagLen]
      · simpa [IKESA.sealBody, hst] using hfinal

/-! ## What it takes to protect a message -/

/-- An AEAD suite needs its state with a salt of four octets, the CBC suite a key of AES and random
octets for the IV. -/
def IKESA.CanSeal (s : IKESA) (rand : RandRead) : Prop :=
  if s.suite.aead then ∃ st, s.aead = some st ∧ st.outSalt.length = 4
  else (s.outboundEncrKey.length = 16 ∨ s.outboundEncrKey.length = 24 ∨ s.outboundEncrKey.length = 32) ∧
    rand.isSome = true

/-- The length of the body that protects `n` octets. -/
def IKESA.sealedLen (s : IKESA) (n : Nat) : Nat :=
  if s.suite.aead then aeadIVLen + (n + 1) + aeadTagLen
  else aesBlock + (n + (cbcPad n).length) + integICVLen

section

variable {c : Crypto} {s s' : IKESA} {rand : RandRead} {pt skData : Bytes}

theorem length_cbcPad_le (n : Nat) : (cbcPad n).length ≤ 256 := by
  obtain ⟨pad, hpad, hle, -⟩ := cbcPad_spec n
  rw [hpad, List.length_append, List.length_singleton]
  omega

theorem IKESA.le_sealedLen (s : IKESA) (n : Nat) : n ≤ s.sealedLen n := by
  unfold IKESA.sealedLen
  split <;> omega

theorem IKESA.sealedLen_le (s : IKESA) (n : Nat) : s.sealedLen n ≤ n + 288 := by
  have hpad := length_cbcPad_le n
  unfold IKESA.sealedLen
  rw [aeadIVLen, aeadTagLen, aesBlock, integICVLen]
  split <;> omega

theorem IKESA.encryptToSK_length (h : s.encryptToSK c rand pt = (.ok skData, s')) :
    skData.length = s.sealedLen pt.length := by
  unfold IKESA.encryptToSK at h
  unfold IKESA.sealedLen
  split at h
  · rename_i ha
    cases h
    rw [if_pos ha]
    simp only [List.length_append, length_putUint64, List.length_singleton, List.length_replicate,
      aeadIVLen]
    omega
  · rename_i ha
    obtain ⟨ivCT, hivCT, hdata⟩ := bind_eq_ok.mp (congrArg Prod.fst h)
    cases hdata
    obtain ⟨iv, hiv, rfl⟩ := aesCBCEncrypt_eq_ok hivCT
    rw [if_neg ha]
    simp [hiv, c.cbcEncrypt_length, aesBlock, Nat.add_assoc]

theorem IKESA.CanSeal.encryptToSK (h : s.CanSeal rand) (c : Crypto) (pt : Bytes) :
    ∃ skData s', s.encryptToSK c rand pt = (.ok skData, s') := by
  unfold IKESA.CanSeal at h
  unfold IKESA.encryptToSK
  split at h
  · rename_i ha
    rw [if_pos ha]
    exact ⟨_, _, rfl⟩
  · rename_i ha
    obtain ⟨hkey, hrand⟩ := h
    obtain ⟨iv, hiv⟩ := RandRead.full_ok hrand aesBlock
    have hlen : iv.length = 16 := RandRead.full_length hiv
    obtain ⟨pad, hpad, -, hmod⟩ := cbcPad_spec pt.length
    have hblocks : (pt ++ cbcPad pt.length).length % 16 = 0 := by
      rw [← hmod, hpad]
      simp [Nat.add_assoc]
    have hcipher : aesNewCipher s.outboundEncrKey = .ok () := if_pos hkey
    have hct : c.encryptBlocks s.outboundEncrKey iv (pt ++ cbcPad pt.length) =
        .ok (c.cbcEncrypt s.outboundEncrKey iv (pt ++ cbcPad pt.length)) := if_pos ⟨hlen, hblocks⟩
    rw [if_neg ha, aesCBCEncrypt, if_neg (by simpa [aesBlock] using hblocks), hcipher, ok_bind, hiv,
      ok_bind, hct]
    exact ⟨_, _, rfl⟩

theorem IKESA.CanSeal.finalizeSK (h : s.CanSeal rand) (henc : s.encryptToSK c rand pt = (.ok skData, s'))
    {pre : Bytes} (hpre : 32 ≤ pre.length) :
    ∃ raw, s.finalizeSK c (pre ++ skData) skData.length = .ok raw := by
  unfold IKESA.CanSeal at h
  unfold IKESA.encryptToSK at henc
  split at h
  · rename_i ha
    obtain ⟨st, hst, hsalt⟩ := h
    rw [if_pos ha] at henc
    cases henc
    have hfinal : s.finalizeSK c
        (pre ++ (putUint64 (s.skSeq + 1) ++ ((pt ++ [0]) ++ List.replicate aeadTagLen 0))) _ = _ :=
      IKESA.finalizeSK_aead ha hst hsalt hpre (by simp) (by simp) (by simp [aeadTagLen])
    rw [List.append_assoc] at hfinal
    exact ⟨_, hfinal⟩
  · rename_i ha
    rw [if_neg ha] at henc
    obtain ⟨ivCT, -, hdata⟩ := bind_eq_ok.mp (congrArg Prod.fst henc)
    cases hdata
    rw [IKESA.finalizeSK, if_neg ha, ← List.append_assoc, s.checksum_append c _ (by simp [integICVLen])]
    exact ⟨_, rfl⟩

/-- A message is only completed with what that takes. -/
theorem IKESA.canSeal_of_finalizeSK {raw out : Bytes} {n : Nat}
    (henc : s.encryptToSK c rand pt = (.ok skData, s')) (h : s.finalizeSK c raw n = .ok out) :
    s.CanSeal rand := by
  unfold IKESA.CanSeal
  unfold IKESA.encryptToSK at henc
  unfold IKESA.finalizeSK at h
  split
  · rename_i ha
    rw [if_pos ha] at h
    dsimp only at h
    split at h
    · cases h
    cases hst : s.aead with
    | none =>
        rw [hst] at h
        cases h
    | some st =>
        rw [hst] at h
        simp only [bind_eq_ok] at h
        obtain ⟨_, -, iv, hiv, _, -, ct, hct, -⟩ := h
        have hlen := length_slice hiv
        rw [aeadIVLen] at hlen
        unfold Crypto.sealWith at hct
        split at hct
        · rename_i hnonce
          rw [List.length_append] at hnonce
          exact ⟨st, rfl, by omega⟩
        · cases hct
  · rename_i ha
    rw [if_neg ha] at henc
    obtain ⟨ivCT, hivCT, -⟩ := bind_eq_ok.mp (congrArg Prod.fst henc)
    unfold aesCBCEncrypt at hivCT
    split at hivCT
    · cases hivCT
    simp only [bind_eq_ok] at hivCT
    obtain ⟨_, hcipher, iv, hiv, -⟩ := hivCT
    refine ⟨?_, RandRead.isSome_of_full hiv⟩
    unfold aesNewCipher at hcipher
    dsimp only at hcipher
    split at hcipher
    · assumption
    · cases hcipher

theorem IKESA.WF.canSeal (h : s.WF) (hrand : rand.isSome = true) : s.CanSeal rand := by
  unfold IKESA.CanSeal
  cases ha : s.suite.aead with
  | true =>
      obtain ⟨kind, hst, -⟩ := h.aead_some ha
      refine ⟨_, hst, ?_⟩
      rw [List.length_drop, h.encrLen.1, ha]
      rfl
  | false =>
      have hkey := h.encrLen.1
      rw [ha] at hkey
      exact ⟨.inr (.inr hkey), hrand⟩

end

end GoIpsec.Ikesa
