import GoIpsec.Esp.Trailer

/-!
# Delivery over an unreliable network

Two SAs with complementary SPIs and keys, one sending.  Each packet it sends is
authentic to the other and opens to the inner datagram it was made from
(`verify_encrypt`).  So the receiver's answers are those of the anti-replay window
on the sequence numbers, and the window takes each number once: whatever the
network loses, repeats and reorders, a datagram is delivered at most once and
unaltered.
-/

namespace GoIpsec.Esp

open Golang
open AntiReplay (Fresh Recent take takeAll)

/-! ## One packet -/

@[simp] theorem length_espHeader (spi seq : UInt32) : (espHeader spi seq).length = 8 := by
  simp [espHeader]

/-- The header of a packet is read back. -/
theorem checkSPI_espHeader (spi seq : UInt32) (rest : Bytes) :
    checkSPI (espHeader spi seq ++ rest) spi = .ok () := by
  rw [checkSPI, espHeader, List.append_assoc, slice_append_of_le (by simp), slice_all (by simp),
    ok_bind, uint32_putUint32, ok_bind]
  simp

theorem seq_espHeader (spi seq : UInt32) (rest : Bytes) :
    (slice (espHeader spi seq ++ rest) 4 8 >>= uint32) = .ok seq := by
  rw [espHeader, List.append_assoc, slice_mid (by simp) (by simp), ok_bind, uint32_putUint32]

/-- A CBC packet `SPI | Seq | IV | ciphertext | ICV` opens to what was encrypted. -/
theorem openCBC_packet {c : Crypto} {block iv icv inner : Bytes} {spi seq : UInt32}
    (hiv : iv.length = 16) (hicv : icv.length = 16) :
    openCBC c block (espHeader spi seq ++ (iv ++
      (c.cbcEncrypt block iv (fillTrailer inner (padLenFor 16 inner)) ++ icv))) = .ok inner := by
  have hmod := length_fillTrailer_mod inner
  have hlen := length_fillTrailer inner (padLenFor 16 inner)
  have hdec := c.cbcDecrypt_cbcEncrypt block iv _ hmod
  have hpad := padLenFor_lt (show 0 < 16 by omega) inner
  have hct := c.cbcEncrypt_length block iv (fillTrailer inner (padLenFor 16 inner))
  generalize c.cbcEncrypt block iv (fillTrailer inner (padLenFor 16 inner)) = ct at hdec hct
  have hivAt : slice (espHeader spi seq ++ (iv ++ (ct ++ icv))) espHeaderLen
      (espHeaderLen + cbcIVLen) = .ok iv :=
    slice_mid (by simp [espHeaderLen]) (by simp [espHeaderLen, cbcIVLen, hiv])
  have hctAt : slice (espHeader spi seq ++ (iv ++ (ct ++ icv))) (espHeaderLen + cbcIVLen)
      ((espHeader spi seq ++ (iv ++ (ct ++ icv))).length - espICVLen) = .ok ct := by
    rw [← List.append_assoc, slice_mid (by simp [espHeaderLen, cbcIVLen, hiv])
      (by simp [espICVLen]; omega)]
  have hblocks : ¬ (ct.length = 0 ∨ ct.length % espBlock ≠ 0) := by rw [espBlock]; omega
  rw [openCBC, hivAt, ok_bind, hctAt, ok_bind, if_neg hblocks, Crypto.decryptBlocks,
    if_pos ⟨hiv, by omega⟩, ok_bind, hdec, parseTrailer_fillTrailer inner (by omega)]

/-- A packet that ends in the MAC of what precedes it is authentic. -/
theorem verifyCBC_mac (c : Crypto) (block integ : Bytes) (spi seq : UInt32) {body : Bytes}
    (h : 32 ≤ body.length) :
    verifyCBC c block integ spi (espHeader spi seq ++ body ++
        (c.hmac integ (espHeader spi seq ++ body)).take espICVLen) =
      .ok { seq, finish := openCBC c block (espHeader spi seq ++ body ++
        (c.hmac integ (espHeader spi seq ++ body)).take espICVLen) } := by
  generalize hmsg : espHeader spi seq ++ body = msg
  have hmsglen : msg.length = 8 + body.length := by rw [← hmsg]; simp
  generalize hmac : (c.hmac integ msg).take espICVLen = icv
  have hicv : icv.length = 16 := by rw [← hmac, List.length_take, c.hmac_length]; rfl
  have hstart : (msg ++ icv).length - espICVLen = msg.length := by simp [hicv, espICVLen]
  have hspi : checkSPI (msg ++ icv) spi = .ok () := by
    rw [← hmsg, List.append_assoc, checkSPI_espHeader]
  have hseq : (slice (msg ++ icv) 4 8 >>= uint32) = .ok seq := by
    rw [← hmsg, List.append_assoc, seq_espHeader]
  have hshort : ¬ (msg ++ icv).length < espHeaderLen + cbcIVLen + espBlock + espICVLen := by
    rw [List.length_append, espHeaderLen, cbcIVLen, espBlock, espICVLen]
    omega
  rw [verifyCBC, if_neg hshort, hspi, ok_bind, ← bind_assoc, hseq, ok_bind]
  simp only [hstart]
  rw [sliceFrom_append rfl, ok_bind, slice_append_of_le (Nat.le_refl _), slice_all rfl, ok_bind,
    hmac, if_neg (by simp)]
  rfl

theorem verifyCBC_encryptCBC {c : Crypto} {block integ : Bytes} {spi seq : UInt32}
    {rand : RandRead} {inner pkt : Bytes}
    (h : encryptCBC c block integ spi seq rand inner = .ok pkt) :
    ∃ v, verifyCBC c block integ spi pkt = .ok v ∧ v.seq = seq ∧ v.finish = .ok inner := by
  simp only [encryptCBC, bind_eq_ok, pure_eq_ok, Except.ok.injEq, espBlock] at h
  obtain ⟨iv, hrand, ct, hct, rfl⟩ := h
  have hiv : iv.length = 16 := RandRead.full_length hrand
  have hmod := length_fillTrailer_mod inner
  rw [Crypto.encryptBlocks, if_pos ⟨hiv, hmod⟩] at hct
  obtain rfl := Except.ok.inj hct
  have hlong : 32 ≤ (iv ++ c.cbcEncrypt block iv (fillTrailer inner (padLenFor 16 inner))).length := by
    have htrailer := length_fillTrailer inner (padLenFor 16 inner)
    rw [List.length_append, c.cbcEncrypt_length]
    omega
  refine ⟨_, verifyCBC_mac c block integ spi seq hlong, rfl, ?_⟩
  simp only [List.append_assoc]
  exact openCBC_packet hiv (by rw [List.length_take, c.hmac_length]; rfl)

theorem verifyAEAD_encryptAEAD {c : Crypto} {aead : AEAD} {salt : Bytes} {spi seq : UInt32}
    {inner pkt : Bytes} (h : encryptAEAD c aead salt spi seq inner = .ok pkt) :
    ∃ v, verifyAEAD c aead salt spi pkt = .ok v ∧ v.seq = seq ∧ v.finish = .ok inner := by
  simp only [encryptAEAD, bind_eq_ok, pure_eq_ok, Except.ok.injEq] at h
  obtain ⟨ct, hct, rfl⟩ := h
  generalize hiv : putUint64 seq.toUInt64 = iv at hct
  have hivlen : iv.length = 8 := by rw [← hiv]; simp
  have hnonce : (salt ++ iv).length = 12 := by
    by_contra hne
    rw [Crypto.sealWith, if_neg hne] at hct
    cases hct
  rw [Crypto.sealWith, if_pos hnonce] at hct
  obtain rfl := Except.ok.inj hct
  have hopen := c.aeadOpen_aeadSeal aead.kind aead.key (salt ++ iv)
    (fillTrailer inner (padLenFor 4 inner)) (espHeader spi seq)
  have hctlen := c.aeadSeal_length aead.kind aead.key (salt ++ iv)
    (fillTrailer inner (padLenFor 4 inner)) (espHeader spi seq)
  rw [length_fillTrailer] at hctlen
  generalize c.aeadSeal aead.kind aead.key (salt ++ iv) (fillTrailer inner (padLenFor 4 inner))
    (espHeader spi seq) = ct at hopen hctlen
  have htrailer : parseTrailer (fillTrailer inner (padLenFor 4 inner)) = .ok inner :=
    parseTrailer_fillTrailer inner (by have := padLenFor_lt (show 0 < 4 by omega) inner; omega)
  have hshort : ¬ (espHeader spi seq ++ (iv ++ ct)).length <
      espHeaderLen + aeadIVLen + 2 + espICVLen := by
    rw [List.length_append, List.length_append, length_espHeader, espHeaderLen, aeadIVLen, espICVLen]
    omega
  have hivAt : slice (espHeader spi seq ++ (iv ++ ct)) espHeaderLen (espHeaderLen + aeadIVLen) =
      .ok iv := by
    rw [slice_mid (by simp [espHeaderLen]) (by simp [espHeaderLen, aeadIVLen, hivlen])]
  have hctAt : sliceFrom (espHeader spi seq ++ (iv ++ ct)) (espHeaderLen + aeadIVLen) = .ok ct := by
    rw [← List.append_assoc, sliceFrom_append (by simp [espHeaderLen, aeadIVLen, hivlen])]
  have haad : slice (espHeader spi seq ++ (iv ++ ct)) 0 espHeaderLen =
      .ok (espHeader spi seq) := by
    rw [slice_append_of_le (by simp [espHeaderLen]), slice_all (by simp [espHeaderLen])]
  refine ⟨⟨seq, _⟩, ?_, rfl, htrailer⟩
  rw [verifyAEAD, if_neg hshort, checkSPI_espHeader, ok_bind, ← bind_assoc, seq_espHeader, ok_bind,
    hivAt, ok_bind, hctAt, ok_bind, haad, ok_bind, Crypto.openWith, if_pos hnonce, ok_bind, hopen]
  rfl

/-! ## Complementary SAs -/

/-- The outbound half of one key state is the inbound half of the other. -/
def Keys.Feeds : Keys → Keys → Prop
  | .cbc outBlock _ outInteg _, .cbc _ inBlock _ inInteg => outBlock = inBlock ∧ outInteg = inInteg
  | .aead outAEAD _ outSalt _, .aead _ inAEAD _ inSalt => outAEAD = inAEAD ∧ outSalt = inSalt
  | _, _ => False

/-- What `tx` sends, `rx` is keyed to receive. -/
def Complementary (tx rx : SA) : Prop := tx.outSPI = rx.inSPI ∧ tx.keys.Feeds rx.keys

theorem newKeysCBC_eq_ok {suite : Suite} {outEncr outInteg inEncr inInteg : Bytes} {k : Keys}
    (h : newKeysCBC suite outEncr outInteg inEncr inInteg = .ok k) :
    k = .cbc outEncr inEncr outInteg inInteg := by
  simp only [newKeysCBC, bind_eq_ok, pure_eq_ok, Except.ok.injEq] at h
  obtain ⟨_, _, _, _, _, _, _, _, rfl⟩ := h
  rfl

theorem newKeysAEAD_eq_ok {suite : Suite} {outEncr outInteg inEncr inInteg : Bytes} {k : Keys}
    (h : newKeysAEAD suite outEncr outInteg inEncr inInteg = .ok k) :
    ∃ outKey inKey outAEAD inAEAD outSalt inSalt, k = .aead outAEAD inAEAD outSalt inSalt ∧
      slice outEncr 0 32 = .ok outKey ∧ newAEAD suite outKey = .ok outAEAD ∧
      slice inEncr 0 32 = .ok inKey ∧ newAEAD suite inKey = .ok inAEAD ∧
      sliceFrom outEncr 32 = .ok outSalt ∧ sliceFrom inEncr 32 = .ok inSalt := by
  simp only [newKeysAEAD, bind_eq_ok, wrapErr_eq_ok, pure_eq_ok, Except.ok.injEq] at h
  obtain ⟨_, _, _, _, outKey, ho, outAEAD, hoa, inKey, hi, inAEAD, hia, outSalt, hos, inSalt, his,
    rfl⟩ := h
  exact ⟨outKey, inKey, outAEAD, inAEAD, outSalt, inSalt, rfl, ho, hoa, hi, hia, hos, his⟩

/-- Two SAs built from the same material with the directions exchanged are
complementary. -/
theorem newSA_complementary {suite : Suite} {spiA spiB w₁ w₂ : UInt32} {e₁ a₁ e₂ a₂ : Bytes}
    {tx rx : SA} (htx : newSA suite spiA spiB e₁ a₁ e₂ a₂ w₁ = .ok tx)
    (hrx : newSA suite spiB spiA e₂ a₂ e₁ a₁ w₂ = .ok rx) : Complementary tx rx := by
  simp only [newSA, bind_eq_ok, pure_eq_ok, Except.ok.injEq] at htx hrx
  obtain ⟨k₁, hk₁, rfl⟩ := htx
  obtain ⟨k₂, hk₂, rfl⟩ := hrx
  refine ⟨rfl, ?_⟩
  have haead (h₁ : newKeysAEAD suite e₁ a₁ e₂ a₂ = .ok k₁)
      (h₂ : newKeysAEAD suite e₂ a₂ e₁ a₁ = .ok k₂) : k₁.Feeds k₂ := by
    obtain ⟨o₁, i₁, oa₁, ia₁, os₁, is₁, rfl, ho₁, hoa₁, -, -, hos₁, -⟩ := newKeysAEAD_eq_ok h₁
    obtain ⟨o₂, i₂, oa₂, ia₂, os₂, is₂, rfl, -, -, hi₂, hia₂, -, his₂⟩ := newKeysAEAD_eq_ok h₂
    rw [ho₁, Except.ok.injEq] at hi₂
    subst hi₂
    rw [hoa₁] at hia₂
    rw [hos₁] at his₂
    exact ⟨Except.ok.inj hia₂, Except.ok.inj his₂⟩
  cases suite with
  | aesCBC256SHA256 =>
      cases newKeysCBC_eq_ok hk₁
      cases newKeysCBC_eq_ok hk₂
      exact ⟨rfl, rfl⟩
  | aesGCM256 => exact haead hk₁ hk₂
  | chaCha20Poly1305 => exact haead hk₁ hk₂
  | other n => cases hk₁

/-- Every packet `tx` emits is authentic to `rx`, carries the next sequence
number, and opens to the inner datagram. -/
theorem Complementary.verify_encrypt {c : Crypto} {tx rx : SA} (h : Complementary tx rx)
    {rand : RandRead} {inner pkt : Bytes} (he : (tx.encrypt c rand inner).1 = .ok pkt) :
    ∃ v, rx.verify c pkt = .ok v ∧ v.seq = tx.seq + 1 ∧ v.finish = .ok inner := by
  obtain ⟨hspi, hkeys⟩ := h
  unfold SA.encrypt at he
  split at he
  · cases he
  rw [SA.verify]
  cases hk₁ : tx.keys with
  | cbc outBlock _ outInteg _ =>
      cases hk₂ : rx.keys with
      | cbc _ inBlock _ inInteg =>
          simp only [hk₁, hk₂, Keys.Feeds] at hkeys he ⊢
          obtain ⟨rfl, rfl⟩ := hkeys
          rw [hspi] at he
          exact verifyCBC_encryptCBC he
      | aead _ _ _ _ => simp only [hk₁, hk₂, Keys.Feeds] at hkeys
  | aead outAEAD _ outSalt _ =>
      cases hk₂ : rx.keys with
      | cbc _ _ _ _ => simp only [hk₁, hk₂, Keys.Feeds] at hkeys
      | aead _ inAEAD _ inSalt =>
          simp only [hk₁, hk₂, Keys.Feeds] at hkeys he ⊢
          obtain ⟨rfl, rfl⟩ := hkeys
          rw [hspi] at he
          exact verifyAEAD_encryptAEAD he

/-! ## Runs -/

/-- Encrypt inner datagrams in order, each with its own random read. -/
def SA.encryptAll (c : Crypto) (sa : SA) : List (RandRead × Bytes) → List (Go Bytes)
  | [] => []
  | (rand, inner) :: inners =>
      let r := sa.encrypt c rand inner
      r.1 :: r.2.encryptAll c inners

/-- Decrypt packets in the order they arrive. -/
def SA.decryptAll (c : Crypto) (sa : SA) : List Bytes → List (Go Bytes) × SA
  | [] => ([], sa)
  | pkt :: pkts =>
      let r := sa.decrypt c pkt
      let rs := r.2.decryptAll c pkts
      (r.1 :: rs.1, rs.2)

theorem SA.encrypt_state {c : Crypto} {sa : SA} (rand : RandRead) (inner : Bytes)
    (h : sa.seq ≠ 0xFFFFFFFF) : (sa.encrypt c rand inner).2 = { sa with seq := sa.seq + 1 } := by
  rw [SA.encrypt, if_neg h]
  cases sa.keys <;> rfl

/-- The packet at position `i` of what `tx` emits is authentic to `rx`, has the
sequence number `i` further on, and opens to the inner datagram at `i`. -/
theorem Complementary.verify_encryptAll {c : Crypto} {rx : SA} :
    ∀ {inners : List (RandRead × Bytes)} {tx : SA} {i : Nat} {pkt : Bytes}, Complementary tx rx →
      tx.seq.toNat + inners.length < 2 ^ 32 → (tx.encryptAll c inners)[i]? = some (.ok pkt) →
      ∃ rand inner v, inners[i]? = some (rand, inner) ∧ rx.verify c pkt = .ok v ∧
        v.seq.toNat = tx.seq.toNat + i + 1 ∧ v.finish = .ok inner
  | [], tx, i, pkt, _, _, h => by simp [SA.encryptAll] at h
  | (rand, inner) :: inners, tx, i, pkt, hc, hlen, h => by
      rw [List.length_cons] at hlen
      have hne : tx.seq ≠ 0xFFFFFFFF := by
        intro he
        rw [he] at hlen
        simp at hlen
        omega
      have hsucc : (tx.seq + 1).toNat = tx.seq.toNat + 1 := by
        rw [UInt32.toNat_add]
        simp
        omega
      rw [SA.encryptAll] at h
      cases i with
      | zero =>
          obtain ⟨v, hv, hseq, hfin⟩ := hc.verify_encrypt (by simpa using h)
          exact ⟨rand, inner, v, rfl, hv, by rw [hseq, hsucc, Nat.add_zero], hfin⟩
      | succ i =>
          simp only [List.getElem?_cons_succ, SA.encrypt_state rand inner hne] at h
          have hc' : Complementary { tx with seq := tx.seq + 1 } rx := hc
          obtain ⟨rand', inner', v, hget, hv, hseq, hfin⟩ :=
            hc'.verify_encryptAll (by simp only [hsucc]; omega) h
          exact ⟨rand', inner', v, hget, hv, by rw [hseq, hsucc]; omega, hfin⟩

/-- The answer to one packet of a run is that of the SA the packets before it
have left. -/
theorem SA.getElem?_decryptAll (c : Crypto) (pkt : Bytes) (after : List Bytes) :
    ∀ (before : List Bytes) (sa : SA),
      (sa.decryptAll c (before ++ pkt :: after)).1[before.length]? =
        some ((sa.decryptAll c before).2.decrypt c pkt).1
  | [], _ => rfl
  | _ :: before, _ => SA.getElem?_decryptAll c pkt after before _

/-- Deciding an authentic packet is up to the window alone. -/
theorem Represents.decrypt {W : Nat} (hW : 0 < W) {c : Crypto} (sa : SA) {taken : Finset Nat}
    (h : Represents W sa.replay taken) {pkt inner : Bytes} {v : Verified}
    (hv : sa.verify c pkt = .ok v) (hfin : v.finish = .ok inner) :
    ∃ w, sa.decrypt c pkt = (if Fresh W taken v.seq.toNat then .ok inner else .error errReplay,
      { sa with replay := w }) ∧ Represents W w (take W taken v.seq.toNat) := by
  obtain ⟨w, hacc, hrep, -⟩ := h.accept hW v.seq
  refine ⟨w, ?_, hrep⟩
  simp only [SA.decrypt, hv, hacc, hfin, decide_eq_true_eq]

/-- The deliveries `ds` are authentic to `rx`: each packet has the sequence number
after its position, and opens. -/
def Authentic (c : Crypto) (rx : SA) (ds : List (Nat × Bytes)) : Prop :=
  ∀ d ∈ ds, ∃ v inner, rx.verify c d.2 = .ok v ∧ v.seq.toNat = d.1 + 1 ∧ v.finish = .ok inner

/-- After authentic deliveries only the window of an SA has changed, and it has
been offered exactly their sequence numbers. -/
theorem Represents.decryptAll {W : Nat} (hW : 0 < W) {c : Crypto} {rx : SA} :
    ∀ {ds : List (Nat × Bytes)} {w : ReplayWindow} {taken : Finset Nat}, Represents W w taken →
      Authentic c rx ds →
      ∃ w', (SA.decryptAll c { rx with replay := w } (ds.map Prod.snd)).2 =
          { rx with replay := w' } ∧
        Represents W w' (((ds.map Prod.fst).map (· + 1)).foldl (take W) taken)
  | [], w, taken, h, _ => ⟨w, rfl, h⟩
  | d :: ds, w, taken, h, hauth => by
      obtain ⟨v, inner, hv, hseq, hfin⟩ := hauth d List.mem_cons_self
      obtain ⟨w₁, hdec, hrep⟩ :=
        Represents.decrypt hW { rx with replay := w } h hv hfin
      rw [hseq] at hrep
      obtain ⟨w', hall, hrep'⟩ :=
        Represents.decryptAll hW hrep fun q hq => hauth q (List.mem_cons_of_mem _ hq)
      refine ⟨w', ?_, hrep'⟩
      simp only [List.map_cons, SA.decryptAll, hdec]
      exact hall

/-- The answer to a delivery behind others, from a fresh window. -/
theorem Authentic.answer {W : Nat} (hW : 0 < W) {c : Crypto} {rx : SA}
    (hnew : Represents W rx.replay ∅) {before after : List (Nat × Bytes)} {i : Nat}
    {pkt inner : Bytes} {v : Verified} (h : Authentic c rx before) (hv : rx.verify c pkt = .ok v)
    (hseq : v.seq.toNat = i + 1) (hfin : v.finish = .ok inner) :
    (rx.decryptAll c ((before ++ (i, pkt) :: after).map Prod.snd)).1[before.length]? =
      some (if Fresh W (takeAll W ((before.map Prod.fst).map (· + 1))) (i + 1) then .ok inner
        else .error errReplay) := by
  obtain ⟨w, hall, hrep⟩ := Represents.decryptAll hW hnew h
  have hanswer := SA.getElem?_decryptAll c pkt (after.map Prod.snd) (before.map Prod.snd) rx
  obtain ⟨w', hdec, -⟩ := Represents.decrypt hW { rx with replay := w } hrep hv hfin
  have hstate : (rx.decryptAll c (before.map Prod.snd)).2 = { rx with replay := w } := hall
  rw [hstate, hdec, hseq, List.length_map] at hanswer
  rw [List.map_append, List.map_cons, hanswer]
  rfl

/-- The delivery of packet `i` after those of `before` is the first one of it that
comes in time: `i` is not `W` or more behind the highest sequence number
delivered, and was not delivered before at such a moment. -/
def FirstInTime (W : Nat) (before : List Nat) (i : Nat) : Prop :=
  Recent W (before.map (· + 1)) (i + 1) ∧
    ¬ ∃ earlier later, before = earlier ++ i :: later ∧ Recent W (earlier.map (· + 1)) (i + 1)

theorem fresh_iff_firstInTime {W : Nat} {before : List Nat} {i : Nat} :
    Fresh W (takeAll W (before.map (· + 1))) (i + 1) ↔ FirstInTime W before i := by
  rw [AntiReplay.fresh_takeAll (by omega), FirstInTime]
  refine and_congr Iff.rfl (not_congr ⟨?_, ?_⟩)
  · rintro ⟨earlier, later, he, hr⟩
    obtain ⟨e, l, rfl, rfl, hl⟩ := List.map_eq_append_iff.mp he
    obtain ⟨j, l, rfl, hj, rfl⟩ := List.map_eq_cons_iff.mp hl
    obtain rfl : j = i := by omega
    exact ⟨e, l, rfl, hr⟩
  · rintro ⟨earlier, later, rfl, hr⟩
    exact ⟨earlier.map (· + 1), later.map (· + 1), by simp, hr⟩

/-- Of two deliveries of one packet only one is the first in time. -/
theorem FirstInTime.once {W : Nat} {before between : List Nat} {i : Nat}
    (h : FirstInTime W before i) : ¬ FirstInTime W (before ++ i :: between) i :=
  fun h' => h'.2 ⟨before, between, rfl, h.1⟩

/-- End-to-end delivery.  `ds` lists the deliveries, each a packet the sender
emitted with its position in the order of sending.  A delivery gives the inner
datagram of its packet if it is the first one in time, else the replay error.  So
no two deliveries of one packet give its inner datagram. -/
theorem decryptAll_encryptAll (c : Crypto) (suite : Suite) (spiA spiB w₁ w₂ : UInt32)
    (e₁ a₁ e₂ a₂ : Bytes) (tx rx : SA) (htx : newSA suite spiA spiB e₁ a₁ e₂ a₂ w₁ = .ok tx)
    (hrx : newSA suite spiB spiA e₂ a₂ e₁ a₁ w₂ = .ok rx) (inners : List (RandRead × Bytes))
    (hlen : inners.length < 2 ^ 32) (ds : List (Nat × Bytes))
    (hds : ∀ d ∈ ds, (tx.encryptAll c inners)[d.1]? = some (.ok d.2)) :
    (∀ before i pkt after, ds = before ++ (i, pkt) :: after →
      ∃ rand inner r, inners[i]? = some (rand, inner) ∧
        (rx.decryptAll c (ds.map Prod.snd)).1[before.length]? = some r ∧
        (FirstInTime (installedSize w₂) (before.map Prod.fst) i → r = .ok inner) ∧
        (¬ FirstInTime (installedSize w₂) (before.map Prod.fst) i → r = .error errReplay)) ∧
    ∀ before i pkt between pkt' after x y,
      ds = before ++ (i, pkt) :: between ++ (i, pkt') :: after →
      (rx.decryptAll c (ds.map Prod.snd)).1[before.length]? = some (.ok x) →
      (rx.decryptAll c (ds.map Prod.snd)).1[(before ++ (i, pkt) :: between).length]? ≠
        some (.ok y) := by
  have hc := newSA_complementary htx hrx
  have hseq : tx.seq.toNat = 0 := by
    simp only [newSA, bind_eq_ok, pure_eq_ok, Except.ok.injEq] at htx
    obtain ⟨_, _, rfl⟩ := htx
    rfl
  have hreplay : rx.replay = newReplayWindow w₂ := by
    simp only [newSA, bind_eq_ok, pure_eq_ok, Except.ok.injEq] at hrx
    obtain ⟨_, _, rfl⟩ := hrx
    rfl
  have hW := installedSize_pos w₂
  have hnew : Represents (installedSize w₂) rx.replay ∅ := hreplay ▸ represents_newReplayWindow w₂
  have hverify (d : Nat × Bytes) (hd : d ∈ ds) : ∃ rand inner v,
      inners[d.1]? = some (rand, inner) ∧ rx.verify c d.2 = .ok v ∧ v.seq.toNat = d.1 + 1 ∧
        v.finish = .ok inner := by
    obtain ⟨rand, inner, v, hget, hv, hs, hf⟩ := hc.verify_encryptAll (by omega) (hds d hd)
    exact ⟨rand, inner, v, hget, hv, by omega, hf⟩
  have hanswer (before : List (Nat × Bytes)) (i : Nat) (pkt : Bytes) (after : List (Nat × Bytes))
      (hsplit : ds = before ++ (i, pkt) :: after) :
      ∃ rand inner r, inners[i]? = some (rand, inner) ∧
        (rx.decryptAll c (ds.map Prod.snd)).1[before.length]? = some r ∧
        (FirstInTime (installedSize w₂) (before.map Prod.fst) i → r = .ok inner) ∧
        (¬ FirstInTime (installedSize w₂) (before.map Prod.fst) i → r = .error errReplay) := by
    subst hsplit
    obtain ⟨rand, inner, v, hget, hv, hs, hf⟩ := hverify (i, pkt) (by simp)
    have hauth : Authentic c rx before := by
      intro d hd
      obtain ⟨_, inner', v', _, hv', hs', hf'⟩ := hverify d (by simp [hd])
      exact ⟨v', inner', hv', hs', hf'⟩
    refine ⟨rand, inner, _, hget, hauth.answer hW hnew hv hs hf, fun hin => ?_, fun hout => ?_⟩
    · exact if_pos (fresh_iff_firstInTime.mpr hin)
    · exact if_neg fun hfresh => hout (fresh_iff_firstInTime.mp hfresh)
  refine ⟨hanswer, ?_⟩
  intro before i pkt between pkt' after x y hsplit hx hy
  obtain ⟨_, _, r₁, _, hr₁, _, hno₁⟩ :=
    hanswer before i pkt (between ++ (i, pkt') :: after) (by simpa using hsplit)
  obtain ⟨_, _, r₂, _, hr₂, _, hno₂⟩ :=
    hanswer (before ++ (i, pkt) :: between) i pkt' after hsplit
  rw [hx, Option.some.injEq] at hr₁
  rw [hy, Option.some.injEq] at hr₂
  by_cases hfirst : FirstInTime (installedSize w₂) (before.map Prod.fst) i
  · have hlate : ¬ FirstInTime (installedSize w₂) ((before ++ (i, pkt) :: between).map Prod.fst) i := by
      rw [List.map_append, List.map_cons]
      exact hfirst.once
    cases hr₂.trans (hno₂ hlate)
  · cases hr₁.trans (hno₁ hfirst)

/-- Three datagrams under AES-GCM.  The last is delivered first and once more in the end, the
first between the two, the second is lost. -/
theorem decryptAll_encryptAll_sample :
    ∃ tx rx, newSA .aesGCM256 1 2 (List.replicate 36 7) [] (List.replicate 36 9) [] 64 = .ok tx ∧
      newSA .aesGCM256 2 1 (List.replicate 36 9) [] (List.replicate 36 7) [] 64 = .ok rx ∧
      ∃ first last, (tx.encryptAll Crypto.sample [(none, [0x45]), (none, [0x60, 1]), (none, [0x45, 2])])[0]? =
          some (.ok first) ∧
        (tx.encryptAll Crypto.sample [(none, [0x45]), (none, [0x60, 1]), (none, [0x45, 2])])[2]? =
          some (.ok last) ∧
        (rx.decryptAll Crypto.sample [last, first, last]).1[0]? = some (.ok [0x45, 2]) ∧
        (rx.decryptAll Crypto.sample [last, first, last]).1[1]? = some (.ok [0x45]) ∧
        (rx.decryptAll Crypto.sample [last, first, last]).1[2]? = some (.error errReplay) := by
  refine ⟨_, _, rfl, rfl, _, _, rfl, rfl, ?_⟩
  have h := (decryptAll_encryptAll Crypto.sample .aesGCM256 1 2 64 64 (List.replicate 36 7) []
    (List.replicate 36 9) [] _ _ rfl rfl [(none, [0x45]), (none, [0x60, 1]), (none, [0x45, 2])] (by decide)
    [(2, _), (0, _), (2, _)] (by simp only [List.forall_mem_cons]; exact ⟨rfl, rfl, rfl, nofun⟩)).1
  obtain ⟨_, _, r₀, hget₀, hr₀, hin₀, -⟩ := h [] 2 _ _ rfl
  obtain ⟨_, _, r₁, hget₁, hr₁, hin₁, -⟩ := h [(2, _)] 0 _ _ rfl
  obtain ⟨_, _, r₂, -, hr₂, -, hout₂⟩ := h [(2, _), (0, _)] 2 _ _ rfl
  cases hget₀
  cases hget₁
  have hlast : FirstInTime (installedSize 64) [] 2 := by
    refine ⟨by decide, ?_⟩
    rintro ⟨earlier, later, he, -⟩
    simp at he
  have hfirst : FirstInTime (installedSize 64) [2] 0 := by
    refine ⟨by decide, ?_⟩
    rintro ⟨earlier, later, he, -⟩
    have hmem : 0 ∈ [2] := he ▸ List.mem_append_right _ List.mem_cons_self
    simp at hmem
  rw [hin₀ hlast] at hr₀
  rw [hin₁ hfirst] at hr₁
  rw [hout₂ hlast.once] at hr₂
  exact ⟨hr₀, hr₁, hr₂⟩

end GoIpsec.Esp
