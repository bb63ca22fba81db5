import GoIpsec.Session.AuthSound

/-!
# The identity of the responder under a pre-shared key

With a pre-shared key the responder says who it is in one payload, and its AUTH covers
what it says.  IKE_AUTH succeeds exactly if that response is acceptable
(`ikeAuthPSK_ok_iff`), and whether it is does not depend on the identity that is
configured.
-/

set_option linter.dupNamespace false

namespace GoIpsec.Session

open Golang Ikemsg Ikesa

section

variable {c : Crypto} {w : World}

/-! ## An acceptable response is accepted -/

theorem handleFinalAuthResponse_ok {d : Dialing} {ps : Payloads} {secret : Bytes} {child : ChildSA}
    (h : Accepted c d.s d.s.remoteIDr secret ps child) :
    (Dial.handleFinalAuthResponse c ps secret d).1 = .ok () := by
  obtain ⟨hnotify, ike, auth, hike, hauth, hid, hmethod, hdata, hsel⟩ := h
  have hcol := collected_foldl ps
  have hsession (d : Dialing) : Dial.session d = (.ok d.s, d) := rfl
  have hchild : Handshake.finalChild c { d.s with remoteIDr := presented d.s.remoteIDr ps } auth
      (lastOf Payload.sa? ps) secret = .ok { child with initiatorSPI := d.s.childInitiatorSPI } :=
    finalChild_eq_ok_iff.mpr ⟨hid, ike, hike, hmethod, hdata, rfl, hsel⟩
  unfold Dial.handleFinalAuthResponse
  rw [Proc.bind_lift_of_ok (collectAuth_eq_ok_iff.mpr ⟨hnotify, rfl⟩)]
  simp only [hcol.auth, hauth]
  rw [Proc.bind_of_ok (takeIDr_eq hcol.idr d), Proc.bind_of_ok (hsession _), hcol.sa,
    Proc.bind_lift_of_ok hchild]
  rfl

/-! ## A response that is heard and refused -/

/-- A response that a failed exchange has heard is not acceptable. -/
theorem ikeAuthPSK_refused (d : Dialing) :
    Proc.Leads (Dial.ikeAuthPSK c w) d (fun _ _ => True) fun d' =>
      ∀ resp child, responses d'.log = responses d.log ++ [resp] →
        ¬ Accepted c d.s d.s.remoteIDr d.s.creds.psk resp child := by
  have hsilent {d' : Dialing} (hd' : responses d'.log = responses d.log) (resp : Payloads)
      (child : ChildSA) (h : responses d'.log = responses d.log ++ [resp]) :
      ¬ Accepted c d.s d.s.remoteIDr d.s.creds.psk resp child := by
    rw [hd'] at h
    exact absurd (congrArg List.length h) (by simp)
  have halloc : Proc.Leads (Dial.allocChildSPI w) d
      (fun _ d' => d'.s.fixed = d.s.fixed ∧ d'.s.remoteIDr = d.s.remoteIDr ∧ d'.log = d.log)
      (fun d' => responses d'.log = responses d.log) :=
    .intro (fun _ _ h => allocChildSPI_eq_ok h)
      (allocChildSPI_keeps (steady_responses _) d rfl)
  refine .bind (halloc.weaken fun _ => hsilent) fun spi d₁ ⟨hfixed, hidr, hlog⟩ => .bind_of_ok rfl ?_
  have hd₁ : responses d₁.log = responses d.log := congrArg responses hlog
  refine deref_leads (hsilent hd₁) fun ike hike => ?_
  refine .bind ((exchangeNext_heardOnly _ _ d₁).weaken fun d' hd' => hsilent (hd'.responses.trans hd₁)) ?_
  intro resp d₂ hheard
  -- From here on the log stays as it is.
  have hlast {d' : Dialing} (hd' : responses d'.log = responses d₂.log) {resp' : Payloads}
      (h : responses d'.log = responses d.log ++ [resp']) : resp' = resp := by
    rw [hd', hheard.responses, hlog] at h
    simpa using h.symm
  cases hnotify : firstNotifyError resp with
  | error e =>
      intro resp' child h hacc
      cases hlast rfl h
      rw [hacc.1] at hnotify
      cases hnotify
  | ok _ =>
      refine .bind_of_ok rfl ?_
      rw [Proc.Leads]
      rcases hrun : Dial.handleFinalAuthResponse c resp d₁.s.creds.psk d₂ with ⟨r, d'⟩
      cases r with
      | ok _ => trivial
      | error e =>
          intro resp' child h hacc
          have hlog' : responses (Dial.handleFinalAuthResponse c resp d₁.s.creds.psk d₂).2.log =
              responses d₂.log :=
            handleFinalAuthResponse_keeps (steady_responses _) (fun _ _ _ h => h) resp
              d₁.s.creds.psk d₂ rfl
          rw [hrun] at hlog'
          cases hlast hlog' h
          have hpsk : d₁.s.creds.psk = d.s.creds.psk := (congrArg (·.creds.psk) hfixed :)
          rw [← hidr, ← hheard.remoteIDr, ← hpsk] at hacc
          have hok := handleFinalAuthResponse_ok (hacc.of_fixed (hheard.fixed.trans hfixed).symm)
          rw [hrun] at hok
          cases hok

theorem ikeAuth_of_psk {d : Dialing} {ike : IKESA} (hike : d.s.ikeSA = some ike)
    (hpsk : d.s.creds.psk ≠ []) : Dial.ikeAuth c w d = Dial.ikeAuthPSK c w d := by
  have hsession : Dial.session d = (.ok d.s, d) := rfl
  rw [Dial.ikeAuth, Proc.bind_of_ok hsession]
  simp only [hike]
  rw [if_pos (List.length_pos_of_ne_nil hpsk)]

/-- With a pre-shared key IKE_AUTH succeeds exactly if the response it has heard is
acceptable. -/
theorem ikeAuthPSK_ok_iff {d : Dialing} {resp : Payloads} (hd : Fresh d)
    (hpsk : d.s.creds.psk ≠ []) (hresp : responses (Dial.ikeAuth c w d).2.log = [resp]) :
    (Dial.ikeAuth c w d).1 = .ok () ↔
      ∃ child, Accepted c d.s d.s.remoteIDr d.s.creds.psk resp child := by
  constructor
  · intro hok
    obtain ⟨-, -, child, -, h⟩ :=
      (ikeAuth_leads (c := c) (w := w) hd.pending hd.log).of_ok (Proc.eq_ok_of_fst hok)
    rw [if_neg hpsk] at h
    obtain ⟨resp', hresp', hacc⟩ := h
    cases hresp.symm.trans hresp'
    exact ⟨child, hacc⟩
  · rintro ⟨child, hacc⟩
    obtain ⟨-, ike, -, hike, -⟩ := id hacc
    rw [ikeAuth_of_psk hike hpsk] at hresp ⊢
    cases hrun : (Dial.ikeAuthPSK c w d).1 with
    | ok _ => rfl
    | error e =>
        have hrefused := (ikeAuthPSK_refused (c := c) (w := w) d).of_error hrun
        rw [hd.log] at hrefused
        exact absurd hacc (hrefused resp child hresp)

/-- If IKE_AUTH succeeds with a pre-shared key, the responder has presented the configured
identity: this holds exactly for the responses that present it, and for those that are
not acceptable under the key in the first place. -/
theorem psk_identity_iff (c : Crypto) (w : World) (d : Dialing) (resp : Payloads) (hd : Fresh d)
    (hpsk : d.s.creds.psk ≠ []) (hidr : d.s.remoteIDr = {})
    (hresp : responses (Dial.ikeAuth c w d).2.log = [resp]) :
    ((Dial.ikeAuth c w d).1 = .ok () → presented {} resp = d.s.creds.remoteID) ↔
      presented {} resp = d.s.creds.remoteID ∨
        ∀ child, ¬ Accepted c d.s {} d.s.creds.psk resp child := by
  rw [ikeAuthPSK_ok_iff hd hpsk hresp, hidr, imp_iff_or_not, not_exists]

end

/-! ## An instance -/

/-- A session with a pre-shared key whose responder presents `id`. -/
def samplePSK (id : WireID) : Dialing :=
  sampleAuth { remoteID := sampleID, psk := [9] } [sampleFinal id [9]]

theorem psk_identity_iff_samplePSK :
    (Dial.ikeAuth .sample sampleWorld (samplePSK sampleID)).1 = .ok () ∧
      ((Dial.ikeAuth .sample sampleWorld (samplePSK sampleID)).1 = .ok () →
        presented {} (sampleFinal sampleID [9]) = sampleID) :=
  ⟨by decide +kernel, (psk_identity_iff .sample sampleWorld (samplePSK sampleID)
    (sampleFinal sampleID [9]) ⟨rfl, rfl, rfl⟩ (by decide) rfl (by decide +kernel)).mpr
      (.inl (by decide))⟩

/-- Another holder of the key is taken for the configured responder. -/
theorem psk_identity_ignored :
    ∃ d resp, Fresh d ∧ d.s.creds.psk ≠ [] ∧ d.s.creds.remoteID ≠ {} ∧
      responses (Dial.ikeAuth .sample sampleWorld d).2.log = [resp] ∧
      (Dial.ikeAuth .sample sampleWorld d).1 = .ok () ∧
      presented {} resp ≠ d.s.creds.remoteID :=
  ⟨samplePSK { type := idTypeFQDN, data := [0x62] }, _, ⟨rfl, rfl, rfl⟩, by decide, by decide,
    show _ = [sampleFinal { type := idTypeFQDN, data := [0x62] } [9]] by decide +kernel,
    by decide +kernel, by decide⟩

end GoIpsec.Session
