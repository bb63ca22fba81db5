import GoIpsec.Esp.Delivery

/-!
# Decrypting does not crash

What an SA that was built for a suite does with an arbitrary packet: it returns a
datagram or an error, and stays such an SA.
-/

namespace GoIpsec.Esp

open Golang

/-- What the construction of an SA provides and its use keeps. -/
structure SA.Sound (sa : SA) : Prop where
  salts : ∀ outAEAD inAEAD outSalt inSalt, sa.keys = .aead outAEAD inAEAD outSalt inSalt →
    outSalt.length = aeadSaltLen ∧ inSalt.length = aeadSaltLen
  window : ∃ W taken, 0 < W ∧ Represents W sa.replay taken

theorem newKeys_salts {suite : Suite} {e₁ a₁ e₂ a₂ : Bytes} {k : Keys}
    (h : newKeys suite e₁ a₁ e₂ a₂ = .ok k) {outAEAD inAEAD : AEAD} {outSalt inSalt : Bytes}
    (hk : k = .aead outAEAD inAEAD outSalt inSalt) :
    outSalt.length = aeadSaltLen ∧ inSalt.length = aeadSaltLen := by
  have haead (h : newKeysAEAD suite e₁ a₁ e₂ a₂ = .ok k) :
      outSalt.length = aeadSaltLen ∧ inSalt.length = aeadSaltLen := by
    simp only [newKeysAEAD, bind_eq_ok, pure_eq_ok, Except.ok.injEq] at h
    obtain ⟨_, hout, _, hin, _, _, _, _, _, _, _, _, s₁, hs₁, s₂, hs₂, rfl⟩ := h
    cases hk
    simp only [checkKeyMaterial] at hout hin
    split at hout
    · cases hout
    split at hin
    · cases hin
    rename_i h₁ h₂
    simp only [not_or, not_not, aeadEncrKeyLen] at h₁ h₂
    rw [sliceFrom_ok (by rw [h₁.1]; decide)] at hs₁
    rw [sliceFrom_ok (by rw [h₂.1]; decide)] at hs₂
    cases hs₁
    cases hs₂
    rw [List.length_drop, List.length_drop, h₁.1, h₂.1]
    decide
  cases suite with
  | aesCBC256SHA256 =>
      rw [newKeysCBC_eq_ok h] at hk
      cases hk
  | aesGCM256 => exact haead h
  | chaCha20Poly1305 => exact haead h
  | other n => cases h

theorem newSA_sound {suite : Suite} {outSPI inSPI w : UInt32} {e₁ a₁ e₂ a₂ : Bytes} {sa : SA}
    (h : newSA suite outSPI inSPI e₁ a₁ e₂ a₂ w = .ok sa) : sa.Sound := by
  simp only [newSA, bind_eq_ok, pure_eq_ok, Except.ok.injEq] at h
  obtain ⟨k, hk, rfl⟩ := h
  exact ⟨fun _ _ _ _ => newKeys_salts hk,
    ⟨installedSize w, ∅, installedSize_pos w, represents_newReplayWindow w⟩⟩

theorem newSA_spis {suite : Suite} {outSPI inSPI w : UInt32} {e₁ a₁ e₂ a₂ : Bytes} {sa : SA}
    (h : newSA suite outSPI inSPI e₁ a₁ e₂ a₂ w = .ok sa) : sa.outSPI = outSPI ∧ sa.inSPI = inSPI := by
  simp only [newSA, bind_eq_ok, pure_eq_ok, Except.ok.injEq] at h
  obtain ⟨k, -, rfl⟩ := h
  exact ⟨rfl, rfl⟩

/-! ## Each check in front of the window -/

theorem parseTrailer_safe (plain : Bytes) : Safe (parseTrailer plain) := by
  unfold parseTrailer
  split
  · exact Safe.fail _
  refine Safe.index_bind (by omega) fun pad => ?_
  dsimp only
  split
  · exact Safe.fail _
  refine Safe.slice_bind (by omega) (by omega) fun r _ => ?_
  split
  · exact Safe.fail _
  refine Safe.index_bind (by omega) fun nh => ?_
  split
  · exact Safe.fail _
  · rw [slice_ok (Nat.zero_le _) (by omega)]
    exact Safe.ok _

theorem checkSPI_safe {pkt : Bytes} (h : 4 ≤ pkt.length) (inSPI : UInt32) :
    Safe (checkSPI pkt inSPI) := by
  unfold checkSPI
  refine Safe.slice_bind (by omega) (by omega) fun r hr => ?_
  refine Safe.uint32_bind (by omega) fun spi => ?_
  dsimp only
  split
  · exact Safe.fail _
  · exact Safe.ok _

theorem openCBC_safe (c : Crypto) (block : Bytes) {pkt : Bytes}
    (h : espHeaderLen + cbcIVLen + espBlock + espICVLen ≤ pkt.length) : Safe (openCBC c block pkt) := by
  unfold espHeaderLen cbcIVLen espBlock espICVLen at h
  unfold openCBC espHeaderLen cbcIVLen espBlock espICVLen
  refine Safe.slice_bind (by omega) (by omega) fun iv hiv => ?_
  refine Safe.slice_bind (by omega) (by omega) fun ct hct => ?_
  split
  · exact Safe.fail _
  · rename_i halign
    rw [Crypto.decryptBlocks, if_pos ⟨by omega, by omega⟩, ok_bind]
    exact parseTrailer_safe _

theorem verifyCBC_safe (c : Crypto) (block integ : Bytes) (inSPI : UInt32) (pkt : Bytes) :
    Safe (verifyCBC c block integ inSPI pkt) := by
  unfold verifyCBC espHeaderLen cbcIVLen espBlock espICVLen
  split
  · exact Safe.fail _
  refine (checkSPI_safe (by omega) inSPI).bind fun _ _ => ?_
  refine Safe.slice_bind (by omega) (by omega) fun r hr => ?_
  refine Safe.uint32_bind (by omega) fun seq => ?_
  refine Safe.sliceFrom_bind (by omega) fun icv _ => ?_
  refine Safe.slice_bind (by omega) (by omega) fun r hr => ?_
  split
  · exact Safe.fail _
  · exact Safe.ok _

theorem verifyAEAD_safe (c : Crypto) (aead : AEAD) {salt : Bytes} (hsalt : salt.length = aeadSaltLen)
    (inSPI : UInt32) (pkt : Bytes) : Safe (verifyAEAD c aead salt inSPI pkt) := by
  simp only [aeadSaltLen] at hsalt
  unfold verifyAEAD espHeaderLen aeadIVLen espICVLen
  split
  · exact Safe.fail _
  refine (checkSPI_safe (by omega) inSPI).bind fun _ _ => ?_
  refine Safe.slice_bind (by omega) (by omega) fun r hr => ?_
  refine Safe.uint32_bind (by omega) fun seq => ?_
  refine Safe.slice_bind (by omega) (by omega) fun iv hiv => ?_
  refine Safe.sliceFrom_bind (by omega) fun ct _ => ?_
  refine Safe.slice_bind (by omega) (by omega) fun aad _ => ?_
  rw [Crypto.openWith, if_pos (by rw [List.length_append]; omega), ok_bind]
  split
  · exact Safe.fail _
  · exact Safe.ok _

theorem SA.Sound.verify_safe {sa : SA} (h : sa.Sound) (c : Crypto) (pkt : Bytes) :
    Safe (sa.verify c pkt) := by
  unfold SA.verify
  split
  · exact verifyCBC_safe c _ _ _ pkt
  · rename_i hkeys
    exact verifyAEAD_safe c _ (h.salts _ _ _ _ hkeys).2 _ pkt

/-- What is left to do with an authentic packet does not crash either. -/
theorem SA.finish_safe {c : Crypto} {sa : SA} {pkt : Bytes} {v : Verified}
    (h : sa.verify c pkt = .ok v) : Safe v.finish := by
  unfold SA.verify at h
  split at h
  · unfold verifyCBC at h
    split at h
    · cases h
    rename_i hlen
    simp only [bind_eq_ok] at h
    obtain ⟨_, _, _, _, _, _, _, _, _, _, h⟩ := h
    split at h
    · cases h
    · cases h
      exact openCBC_safe c _ (Nat.le_of_not_lt hlen)
  · unfold verifyAEAD at h
    split at h
    · cases h
    simp only [bind_eq_ok] at h
    obtain ⟨_, _, _, _, _, _, _, _, _, _, _, _, o, _, h⟩ := h
    cases o with
    | none => cases h
    | some plain =>
        cases h
        exact parseTrailer_safe plain

/-! ## One packet -/

theorem SA.decrypt_of_error {c : Crypto} {sa : SA} {pkt : Bytes} {e : Fault}
    (h : sa.verify c pkt = .error e) : sa.decrypt c pkt = (.error e, sa) := by
  rw [SA.decrypt, h]

theorem SA.Sound.decrypt {sa : SA} (h : sa.Sound) (c : Crypto) (pkt : Bytes) :
    ∃ res replay, sa.decrypt c pkt = (res, { sa with replay }) ∧ Safe res ∧
      SA.Sound { sa with replay } := by
  cases hv : sa.verify c pkt with
  | error e =>
      exact ⟨.error e, sa.replay, SA.decrypt_of_error hv, (h.verify_safe c pkt).of_error hv, h⟩
  | ok v =>
      obtain ⟨W, taken, hW, hrep⟩ := h.window
      obtain ⟨w, hw, hrep', -⟩ := hrep.accept hW v.seq
      have hres : Safe (if AntiReplay.Fresh W taken v.seq.toNat then v.finish
          else .error errReplay) := by
        split
        · exact SA.finish_safe hv
        · exact Safe.fail _
      refine ⟨_, w, ?_, hres, ⟨h.salts, W, _, hW, hrep'⟩⟩
      rw [SA.decrypt, hv]
      simp only [hw, decide_eq_true_eq]

end GoIpsec.Esp
