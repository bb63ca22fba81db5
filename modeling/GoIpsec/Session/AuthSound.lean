import GoIpsec.Session.AuthSteps
import GoIpsec.Session.Negotiation

/-!
# Soundness of IKE_AUTH

If IKE_AUTH returns without error, the responder has passed every check of the mode
that is configured, and only then is the session established.

An authentication that has not succeeded yet is `Pending`: no Child SA is set and the
session is not established.  Every procedure keeps that, up to the last assignment of
`handleFinalAuthResponse`, so it also holds wherever an error is returned.  The log says
what was heard and answered on the way.
-/

set_option linter.dupNamespace false

namespace GoIpsec.Session

open Golang Ikemsg Ikesa

/-! ## What is kept up to the end -/

/-- Every key that was derived comes from the conversation before it, and that one is
verified. -/
def Derivations (w : World) (user pass : Bytes) : List Moment → Prop
  | [] => True
  | .derived m msk :: log =>
      (Conversed w user pass m (eapAnswers log) ∧ m.authChecked = true ∧
        Eap.deriveMSK w.eap m.passwordHashHash m.ntResponse = .ok msk) ∧ Derivations w user pass log
  | _ :: log => Derivations w user pass log

/-- No outcome yet. -/
structure Pending (w : World) (user pass : Bytes) (d : Dialing) : Prop where
  established : d.s.established = false
  child : d.s.child = none
  derivations : Derivations w user pass d.log

section

variable {c : Crypto} {w : World} {user pass : Bytes}

theorem steady_pending : Steady (Pending w user pass) where
  reads _ _ h := ⟨h.established, h.child, h.derivations⟩
  spi _ _ h := ⟨h.established, h.child, h.derivations⟩
  idr _ _ h := ⟨h.established, h.child, h.derivations⟩
  answered _ _ _ h := ⟨h.established, h.child, h.derivations⟩

theorem exchangeNext_pending (what : String) (inner : Payloads) :
    Proc.Keeps (Pending w user pass) (Dial.exchangeNext c w what inner) :=
  .bind (fun _ hd => hd) fun _ =>
    .bind (.wrap <| .bind (deref_keeps _) fun _ =>
      .bind (encodeSK_keeps _ _ _ _ (fun _ _ _ hd => ⟨hd.established, hd.child, hd.derivations⟩)
        fun _ _ _ hd => ⟨hd.established, hd.child, hd.derivations⟩) fun _ =>
      .bind (exchange_keeps _ _ fun _ _ _ hd => ⟨hd.established, hd.child, hd.derivations⟩) fun _ =>
        decodeSK_keeps _ fun _ _ hd => ⟨hd.established, hd.child, hd.derivations⟩) fun _ =>
    .bind (fun _ hd => ⟨hd.established, hd.child, hd.derivations⟩) fun _ => .pure _

/-! ## The responses -/

theorem collectAuth_eq_ok_iff {acc r : AuthResponse} {ps : Payloads} :
    collectAuth acc ps = .ok r ↔ firstNotifyError ps = .ok () ∧ r = ps.foldl AuthResponse.add acc := by
  induction ps generalizing acc with
  | nil => simp [collectAuth, firstNotifyError, eq_comm]
  | cons p ps ih =>
      rw [collectAuth, firstNotifyError, bind_eq_ok, bind_eq_ok]
      simp only [ih, List.foldl_cons]
      constructor
      · rintro ⟨_, hp, hps, rfl⟩
        exact ⟨⟨_, hp, hps⟩, rfl⟩
      · rintro ⟨⟨_, hp, hps⟩, rfl⟩
        exact ⟨_, hp, hps, rfl⟩

/-- The payloads of a response that was collected. -/
structure Collected (ps : Payloads) (r : AuthResponse) : Prop where
  idr : r.idr = lastOf Payload.idr? ps
  auth : r.auth = lastOf Payload.auth? ps
  certsDER : r.certsDER = (ps.filterMap Payload.cert?).map (·.data)
  sa : r.sa = lastOf Payload.sa? ps

theorem collected_foldl (ps : Payloads) : Collected ps (ps.foldl AuthResponse.add {}) := by
  induction ps using List.reverseRecOn with
  | nil => exact ⟨rfl, rfl, rfl, rfl⟩
  | append_singleton ps p ih =>
      rw [List.foldl_concat]
      constructor
      · rw [lastOf_concat, ← ih.idr]
        cases p <;> rfl
      · rw [lastOf_concat, ← ih.auth]
        cases p <;> rfl
      · rw [List.filterMap_append, List.map_append, ← ih.certsDER]
        cases p <;> first | rfl | exact (List.append_nil _).symm
      · rw [lastOf_concat, ← ih.sa]
        cases p <;> rfl

theorem collectAuth_collected {ps : Payloads} {r : AuthResponse} (h : collectAuth {} ps = .ok r) :
    Collected ps r := by
  obtain ⟨-, rfl⟩ := collectAuth_eq_ok_iff.mp h
  exact collected_foldl ps

/-! ## The checks of the first response -/

/-- The certificates of a chain of payloads, leaf first. -/
def certificates (ps : Payloads) : List Bytes := (ps.filterMap Payload.cert?).map (·.data)

/-- The identity of the responder after a response.  One without IDr leaves it. -/
def presented (before : WireID) (ps : Payloads) : WireID :=
  match lastOf Payload.idr? ps with
  | none => before
  | some idr => { type := idr.idType, data := idr.data }

/-- The certificates are accepted under the configured name, and AUTH is a signature of
the leaf over what the responder has to sign. -/
def CertAuthentic (c : Crypto) (w : World) (s : Handshake) (ps : Payloads) : Prop :=
  ∃ ike idr auth leaf, s.ikeSA = some ike ∧ lastOf Payload.idr? ps = some idr ∧
    lastOf Payload.auth? ps = some auth ∧
    Auth.verifyServerChain w.x509 (certificates ps) s.peerName = .ok leaf ∧
    Auth.verifyCertAuth w.x509 auth.method auth.data
      (s.responderSignedOctets c ike (presented {} ps)) leaf = .ok ()

theorem handleAuthResponse_eq_ok {ps : Payloads} {req : Eap.Packet} {d d' : Dialing}
    (h : Dial.handleAuthResponse c w ps d = (.ok req, d')) :
    CertAuthentic c w d.s ps ∧
      d' = { d with s := { d.s with remoteIDr := presented d.s.remoteIDr ps } } := by
  obtain ⟨r, _, h₁, h⟩ := Proc.bind_eq_ok h
  obtain ⟨hr, rfl⟩ := Proc.lift_eq_ok h₁
  have hcol := collectAuth_collected hr
  cases hidr : r.idr with
  | none =>
      rw [hidr] at h
      cases congrArg Prod.fst h
  | some idr =>
      rw [hidr] at h
      have hlast : lastOf Payload.idr? ps = some idr := by rw [← hcol.idr, hidr]
      obtain ⟨_, _, h₂, h⟩ := Proc.bind_eq_ok h
      cases h₂
      obtain ⟨s, _, h₃, h⟩ := Proc.bind_eq_ok h
      cases h₃
      obtain ⟨leaf, _, h₄, h⟩ := Proc.bind_eq_ok h
      obtain ⟨hleaf, rfl⟩ := Proc.lift_eq_ok h₄
      cases hauth : r.auth with
      | none =>
          rw [hauth] at h
          cases congrArg Prod.fst h
      | some auth =>
          rw [hauth] at h
          obtain ⟨ike, _, h₅, h⟩ := Proc.bind_eq_ok h
          obtain ⟨hike, rfl⟩ := Dial.deref_eq_ok h₅
          obtain ⟨_, _, h₆, h⟩ := Proc.bind_eq_ok h
          obtain ⟨hverify, rfl⟩ := Proc.lift_eq_ok h₆
          obtain ⟨o, _, h₇, h⟩ := Proc.bind_eq_ok h
          obtain ⟨hreq, rfl⟩ := Proc.lift_eq_ok h₇
          cases o with
          | none => cases congrArg Prod.fst h
          | some req' =>
              cases h
              refine ⟨⟨ike, idr, auth, leaf, hike, hlast, by rw [← hcol.auth, hauth], ?_, ?_⟩, ?_⟩
              · rw [certificates, ← hcol.certsDER]
                exact hleaf
              · rw [presented, hlast]
                exact wrapErr_eq_ok.mp hverify
              · rw [presented, hlast]

/-! ## The checks of the last response -/

/-- A Child SA that a response selects: with an enabled suite, the only one that can be
meant, and with a SPI of four octets. -/
def ChildSelected (c : Crypto) (s : Handshake) (ike : IKESA) (ps : Payloads) (child : ChildSA) :
    Prop :=
  ∃ sa prop rest suite, lastOf Payload.sa? ps = some sa ∧ sa.proposals = prop :: rest ∧
    suite ∈ s.enabledESPSuites ∧ isSelectionFor suite prop = true ∧
    (∀ other ∈ s.enabledESPSuites, isSelectionFor other prop = true → other = suite) ∧
    prop.spi.length = 4 ∧ uint32 prop.spi = .ok child.responderSPI ∧ child.suite = suite.id ∧
    ike.deriveChildKeys c [] s.nonceI s.nonceR suite.encrKeyLen suite.integKeyLen = .ok child.keys

/-- What the last response has to pass.  It carries no error notify, and its AUTH is keyed
by the secret and covers the identity that was presented. -/
def Accepted (c : Crypto) (s : Handshake) (before : WireID) (secret : Bytes) (ps : Payloads)
    (child : ChildSA) : Prop :=
  firstNotifyError ps = .ok () ∧ ∃ ike auth, s.ikeSA = some ike ∧
    lastOf Payload.auth? ps = some auth ∧ presented before ps ≠ {} ∧
    auth.method = Auth.methodSharedKeyMIC ∧
    auth.data = Auth.sharedSecretAuth (prf c) secret
      (s.responderSignedOctets c ike (presented before ps)) ∧
    ChildSelected c s ike ps child

theorem selectChild_eq_ok_iff {s : Handshake} {o : Option SAPayload} {prop : Proposal}
    {suite : EspSuite} : s.selectChild o = .ok (prop, suite) ↔
      ∃ sa rest, o = some sa ∧ sa.proposals = prop :: rest ∧
        selectedSuite prop s.enabledESPSuites = some suite ∧ prop.spi.length = 4 := by
  unfold Handshake.selectChild
  constructor
  · intro h
    split at h
    · cases h
    split at h
    · cases h
    dsimp only at h
    split at h
    · cases h
    split at h
    · cases h
    rename_i sa _ prop' rest hprops _ suite' hsuite hlen
    cases h
    exact ⟨sa, rest, rfl, hprops, hsuite, not_ne_iff.mp hlen⟩
  · rintro ⟨sa, rest, rfl, hprops, hsuite, hlen⟩
    simp only [hprops, hsuite, hlen]
    rfl

/-- The suite that `selectedSuite` finds is the only one that can be meant. -/
theorem selectedSuite_eq_some_iff {s : Handshake} {prop : Proposal} {suite : EspSuite} :
    selectedSuite prop s.enabledESPSuites = some suite ↔
      suite ∈ s.enabledESPSuites ∧ isSelectionFor suite prop = true ∧
        ∀ other ∈ s.enabledESPSuites, isSelectionFor other prop = true → other = suite := by
  constructor
  · intro h
    obtain ⟨hmem, hfor⟩ := mem_of_selectedSuite h
    refine ⟨hmem, hfor, fun other hother hotherFor => ?_⟩
    exact Narrowed.unique distinctEncr_espSuites (mem_of_mem_enabledSuites hmem)
      (mem_of_mem_enabledSuites hother) (isSelectionFor_iff.mp hfor) (isSelectionFor_iff.mp hotherFor)
  · rintro ⟨hmem, hfor, huniq⟩
    cases hsel : selectedSuite prop s.enabledESPSuites with
    | none => exact absurd hfor (List.find?_eq_none.mp hsel suite hmem)
    | some other =>
        obtain ⟨hother, hotherFor⟩ := mem_of_selectedSuite hsel
        rw [huniq other hother hotherFor]

theorem WireID.ne_default_iff {id : WireID} : id ≠ {} ↔ ¬ (id.type = 0 ∧ id.data.length = 0) := by
  obtain ⟨type, data⟩ := id
  rw [List.length_eq_zero_iff]
  exact not_congr (WireID.mk.injEq type data 0 [] ▸ Iff.rfl)

/-- The Child SA of the last response is returned if every check passes, and only then. -/
theorem finalChild_eq_ok_iff {s : Handshake} {auth : AuthPayload} {ps : Payloads} {secret : Bytes}
    {child : ChildSA} :
    s.finalChild c auth (lastOf Payload.sa? ps) secret = .ok child ↔
      s.remoteIDr ≠ {} ∧ ∃ ike, s.ikeSA = some ike ∧ auth.method = Auth.methodSharedKeyMIC ∧
        auth.data = Auth.sharedSecretAuth (prf c) secret
          (s.responderSignedOctets c ike s.remoteIDr) ∧
        child.initiatorSPI = s.childInitiatorSPI ∧ ChildSelected c s ike ps child := by
  rw [WireID.ne_default_iff]
  unfold Handshake.finalChild
  constructor
  · intro h
    split at h
    · cases h
    rename_i hid
    split at h
    · cases h
    rename_i ike hike
    dsimp only at h
    split at h
    · cases h
    rename_i hwant
    rw [not_or, not_ne_iff, not_ne_iff] at hwant
    simp only [bind_eq_ok, pure_eq_ok, Except.ok.injEq] at h
    obtain ⟨⟨prop, suite⟩, hsel, spi, hspi, keys, hkeys, rfl⟩ := h
    obtain ⟨sa, rest, hsa, hprops, hfind, hlen⟩ := selectChild_eq_ok_iff.mp hsel
    obtain ⟨hmem, hfor, huniq⟩ := selectedSuite_eq_some_iff.mp hfind
    exact ⟨hid, ike, hike, hwant.1, hwant.2, rfl, sa, prop, rest, suite, hsa, hprops, hmem, hfor,
      huniq, hlen, hspi, rfl, hkeys⟩
  · rintro ⟨hid, ike, hike, hmethod, hdata, hinit, sa, prop, rest, suite, hsa, hprops, hmem, hfor,
      huniq, hlen, hspi, hsuite, hkeys⟩
    have hsel : s.selectChild (lastOf Payload.sa? ps) = .ok (prop, suite) :=
      selectChild_eq_ok_iff.mpr
        ⟨sa, rest, hsa, hprops, selectedSuite_eq_some_iff.mpr ⟨hmem, hfor, huniq⟩, hlen⟩
    obtain ⟨initiatorSPI, responderSPI, _, keys⟩ := child
    cases hinit
    cases hsuite
    simp only [if_neg hid, hike, hmethod, hdata, hsel, ok_bind, hspi, hkeys, ne_eq, not_true,
      or_self, if_false]
    rfl

/-- The state after the last response was accepted. -/
structure Finished (c : Crypto) (d : Dialing) (secret : Bytes) (ps : Payloads) (d' : Dialing) :
    Prop where
  established : d'.s.established = true
  log : d'.log = d.log
  remoteIDr : d'.s.remoteIDr = presented d.s.remoteIDr ps
  child : ∃ child, d'.s.child = some child ∧ Accepted c d.s d.s.remoteIDr secret ps child

theorem takeIDr_eq {ps : Payloads} {r : AuthResponse} (hr : r.idr = lastOf Payload.idr? ps)
    (d : Dialing) :
    Dial.takeIDr r.idr d =
      (.ok (), { d with s := { d.s with remoteIDr := presented d.s.remoteIDr ps } }) := by
  unfold presented
  rw [← hr]
  cases r.idr with
  | none => rfl
  | some idr => rfl

theorem handleFinalAuthResponse_leads {d : Dialing} (hd : Pending w user pass d) (ps : Payloads)
    (secret : Bytes) :
    Proc.Leads (Dial.handleFinalAuthResponse c ps secret) d (fun _ => Finished c d secret ps)
      (Pending w user pass) := by
  refine .bind_lift hd fun r hr => ?_
  have hcol := collectAuth_collected hr
  cases hauth : r.auth with
  | none => exact hd
  | some auth =>
      have hp : Pending w user pass
          { d with s := { d.s with remoteIDr := presented d.s.remoteIDr ps } } :=
        ⟨hd.established, hd.child, hd.derivations⟩
      refine .bind_of_ok (takeIDr_eq hcol.idr d) (.bind_of_ok rfl (.bind_lift hp fun child h => ?_))
      rw [hcol.sa] at h
      obtain ⟨hid, ike, hike, hmethod, hdata, -, hsel⟩ := finalChild_eq_ok_iff.mp h
      exact ⟨rfl, rfl, rfl, child, rfl, (collectAuth_eq_ok_iff.mp hr).1, ike, auth, hike,
        by rw [← hcol.auth, hauth], hid, hmethod, hdata, hsel⟩

/-! ## The fixed part -/

theorem responderSignedOctets_of_fixed {s s' : Handshake} {ike ike' : IKESA}
    (h : s'.fixed = s.fixed) (hike : { ike' with skSeq := 0 } = { ike with skSeq := 0 })
    (id : WireID) : s'.responderSignedOctets c ike' id = s.responderSignedOctets c ike id :=
  (congrArg₂ (fun (s : Handshake) ike => s.responderSignedOctets c ike id) h hike :)

theorem CertAuthentic.of_fixed {s s' : Handshake} {ps : Payloads} (h : s'.fixed = s.fixed)
    (hauth : CertAuthentic c w s' ps) : CertAuthentic c w s ps := by
  obtain ⟨ike', idr, auth, leaf, hike', hidr, hlast, hchain, hverify⟩ := hauth
  obtain ⟨ike, hike, heq⟩ := exists_ikeSA_of_fixed h hike'
  have hname : s'.peerName = s.peerName := (congrArg Handshake.peerName h :)
  rw [hname] at hchain
  rw [responderSignedOctets_of_fixed h heq] at hverify
  exact ⟨ike, idr, auth, leaf, hike, hidr, hlast, hchain, hverify⟩

theorem ChildSelected.of_fixed {s s' : Handshake} {ike ike' : IKESA} {ps : Payloads}
    {child : ChildSA} (h : s'.fixed = s.fixed)
    (hike : { ike' with skSeq := 0 } = { ike with skSeq := 0 })
    (hsel : ChildSelected c s' ike' ps child) : ChildSelected c s ike ps child := by
  obtain ⟨sa, prop, rest, suite, hsa, hprops, hmem, hfor, huniq, hlen, hspi, hsuite, hkeys⟩ := hsel
  have henabled : s'.enabledESPSuites = s.enabledESPSuites :=
    (congrArg Handshake.enabledESPSuites h :)
  have hderive : ike'.deriveChildKeys c [] s'.nonceI s'.nonceR suite.encrKeyLen suite.integKeyLen =
      ike.deriveChildKeys c [] s.nonceI s.nonceR suite.encrKeyLen suite.integKeyLen :=
    (congrArg₂ (fun (s : Handshake) (ike : IKESA) => ike.deriveChildKeys c [] s.nonceI s.nonceR
      suite.encrKeyLen suite.integKeyLen) h hike :)
  rw [henabled] at hmem huniq
  rw [hderive] at hkeys
  exact ⟨sa, prop, rest, suite, hsa, hprops, hmem, hfor, huniq, hlen, hspi, hsuite, hkeys⟩

theorem Accepted.of_fixed {s s' : Handshake} {before : WireID} {secret : Bytes} {ps : Payloads}
    {child : ChildSA} (h : s'.fixed = s.fixed) (hacc : Accepted c s' before secret ps child) :
    Accepted c s before secret ps child := by
  obtain ⟨hnotify, ike', auth, hike', hlast, hid, hmethod, hdata, hchild⟩ := hacc
  obtain ⟨ike, hike, heq⟩ := exists_ikeSA_of_fixed h hike'
  rw [responderSignedOctets_of_fixed h heq] at hdata
  exact ⟨hnotify, ike, auth, hike, hlast, hid, hmethod, hdata, hchild.of_fixed h heq⟩

/-! ## The EAP rounds -/

theorem answerEAP_eq_ok {m m' : Eap.MSCHAPv2} {req resp : Eap.Packet} {d d' : Dialing}
    (h : Dial.answerEAP w m req d = (.ok (resp, m'), d'))
    (hm : Conversed w user pass m (eapAnswers d.log)) :
    Conversed w user pass m' (eapAnswers d'.log) ∧ d'.s = d.s ∧ responses d'.log = responses d.log := by
  obtain ⟨rand, _, h₁, h⟩ := Proc.bind_eq_ok h
  cases h₁
  obtain ⟨p, _, h₂, h⟩ := Proc.bind_eq_ok h
  obtain ⟨hp, rfl⟩ := Proc.lift_eq_ok h₂
  cases h
  exact ⟨.answer hm (Proc.eq_ok_of_fst hp), rfl, rfl⟩

/-- The rounds that end with EAP-Success: the conversation goes on, and if it has inputs
for a key, a Success was accepted in it. -/
structure Converged (w : World) (user pass : Bytes) (d : Dialing) (m : Eap.MSCHAPv2)
    (d' : Dialing) : Prop where
  fixed : d'.s.fixed = d.s.fixed
  remoteIDr : d'.s.remoteIDr = d.s.remoteIDr
  responses : ∃ mid, responses d'.log = responses d.log ++ mid
  conversed : Conversed w user pass m (eapAnswers d'.log)
  verified : m.passwordHashHash.length > 0 → m.ntResponse.length > 0 → m.authChecked = true

theorem eapRounds_converged {n : Nat} {m m' : Eap.MSCHAPv2} {req : Eap.Packet} {d d' : Dialing}
    (h : Dial.eapRounds c w n m req d = (.ok m', d'))
    (hm : Conversed w user pass m (eapAnswers d.log)) : Converged w user pass d m' d' := by
  induction n generalizing m req d with
  | zero => cases congrArg Prod.fst h
  | succ n ih =>
      rw [Dial.eapRounds] at h
      split at h
      · obtain ⟨hgate, h⟩ := Proc.guard_eq_ok h
        cases h
        refine ⟨rfl, rfl, ⟨[], (List.append_nil _).symm⟩, hm, fun hphh hnt => ?_⟩
        by_contra hv
        exact hgate ⟨hphh, hnt, Bool.eq_false_iff.mpr hv⟩
      · obtain ⟨-, h⟩ := Proc.guard_eq_ok h
        obtain ⟨⟨resp, m₁⟩, d₁, hans, h⟩ := Proc.bind_eq_ok h
        obtain ⟨hm₁, hs₁, hresp₁⟩ := answerEAP_eq_ok hans hm
        obtain ⟨ps, d₂, hex, h⟩ := Proc.bind_eq_ok h
        have hheard := exchangeNext_eq_ok hex
        obtain ⟨_, _, h₃, h⟩ := Proc.bind_eq_ok h
        obtain ⟨-, rfl⟩ := Proc.lift_eq_ok h₃
        obtain ⟨o, _, h₄, h⟩ := Proc.bind_eq_ok h
        obtain ⟨-, rfl⟩ := Proc.lift_eq_ok h₄
        cases o with
        | none => cases congrArg Prod.fst h
        | some next =>
            obtain ⟨hfixed, hidr, ⟨mid, hmid⟩, hconv, hver⟩ := ih h (hheard.answers ▸ hm₁)
            refine ⟨?_, ?_, ⟨ps :: mid, ?_⟩, hconv, hver⟩
            · rw [hfixed, hheard.fixed, hs₁]
            · rw [hidr, hheard.remoteIDr, hs₁]
            · rw [hmid, hheard.responses, hresp₁, List.append_assoc]
              rfl

/-! ## The exchange -/

theorem deriveMSK_eq_ok {lib : Eap.Library} {phh nt msk : Bytes}
    (h : Eap.deriveMSK lib phh nt = .ok msk) : phh.length > 0 ∧ nt.length > 0 := by
  unfold Eap.deriveMSK at h
  split at h
  · cases h
  · omega

/-- A challenge was answered, and after it the server has proved to know its response. -/
def ServerProved (as : List (Eap.Packet × Eap.MSCHAPv2)) : Prop :=
  ∃ newer x mid q older, as = newer ++ x :: (mid ++ q :: older) ∧ q.1.isChallenge = true ∧
    x.1.isSuccess = true ∧ ∃ msg, Eap.messageBody x.1.data = .ok msg ∧ q.2.authResponse ≠ [] ∧
      q.2.authResponse <+: msg

theorem Conversed.serverProved {m : Eap.MSCHAPv2} {as : List (Eap.Packet × Eap.MSCHAPv2)}
    (h : Conversed w user pass m as) (hm : m.authChecked = true) : ServerProved as := by
  obtain ⟨newer, x, older, rfl, hx⟩ := h.exists_success hm
  obtain ⟨mid, q, first, rfl, hq, -, -, msg, hmsg, hne, hstart⟩ := h.proves hx
  exact ⟨newer, x, mid, q, first, rfl, hq, hx, msg, hmsg, hne, hstart⟩

/-- The evidence of an authentication with EAP, in its log: the first response is that of
the owner of the certificate, and the secret of the last one is the key of a conversation
in which the server has proved itself, before the key was derived. -/
structure EapEvidence (c : Crypto) (w : World) (s : Handshake) (log : List Moment)
    (first final : Payloads) (m : Eap.MSCHAPv2) (msk : Bytes) : Prop where
  responses : ∃ mid, responses log = first :: (mid ++ [final])
  cert : CertAuthentic c w s first
  derived : ∃ newer older, log = newer ++ .derived m msk :: older ∧
    Conversed w s.creds.eapUser s.creds.eapPass m (eapAnswers older) ∧ ServerProved (eapAnswers older)
  msk : Eap.deriveMSK w.eap m.passwordHashHash m.ntResponse = .ok msk

theorem ikeAuthPSK_leads {d : Dialing} (hd : Pending w user pass d) :
    Proc.Leads (Dial.ikeAuthPSK c w) d
      (fun _ d' => d'.s.established = true ∧ Derivations w user pass d'.log ∧
        ∃ resp child, responses d'.log = responses d.log ++ [resp] ∧ d'.s.child = some child ∧
          Accepted c d.s d.s.remoteIDr d.s.creds.psk resp child)
      (Pending w user pass) := by
  refine .bind_keeps (allocChildSPI_keeps steady_pending) hd fun spi d₁ halloc hd₁ => .bind_of_ok rfl ?_
  obtain ⟨hfixed, hidr, hlog⟩ := allocChildSPI_eq_ok halloc
  refine deref_leads hd₁ fun ike hike => ?_
  refine .bind_keeps (exchangeNext_pending _ _) hd₁ fun resp d₂ hex hd₂ => .bind_lift hd₂ fun _ _ => ?_
  have hheard := exchangeNext_eq_ok hex
  refine .mono (handleFinalAuthResponse_leads hd₂ resp _) fun _ d' hfin => ?_
  obtain ⟨child, hchild, hacc⟩ := hfin.child
  have hpsk : d₁.s.creds.psk = d.s.creds.psk := (congrArg (·.creds.psk) hfixed :)
  rw [hheard.remoteIDr, hidr, hpsk] at hacc
  refine ⟨hfin.established, hfin.log ▸ hd₂.derivations, resp, child, ?_, hchild,
    hacc.of_fixed (hheard.fixed.trans hfixed)⟩
  rw [hfin.log, hheard.responses, hlog]

theorem ikeAuthEAP_leads {d : Dialing} (hd : Pending w d.s.creds.eapUser d.s.creds.eapPass d)
    (hlog : d.log = []) :
    Proc.Leads (Dial.ikeAuthEAP c w) d
      (fun _ d' => d'.s.established = true ∧
        Derivations w d.s.creds.eapUser d.s.creds.eapPass d'.log ∧
        ∃ first final m msk child, EapEvidence c w d.s d'.log first final m msk ∧
          d'.s.child = some child ∧
          Accepted c d.s (presented d.s.remoteIDr first) msk final child)
      (Pending w d.s.creds.eapUser d.s.creds.eapPass) := by
  refine .bind_keeps (allocChildSPI_keeps steady_pending) hd fun spi d₁ halloc hd₁ => .bind_of_ok rfl ?_
  obtain ⟨hfixed₁, hidr₁, hlog₁⟩ := allocChildSPI_eq_ok halloc
  refine .bind_keeps (exchangeNext_pending _ _) hd₁ fun first d₂ hex₂ hd₂ => ?_
  have hheard₂ := exchangeNext_eq_ok hex₂
  refine .bind_keeps (handleAuthResponse_keeps steady_pending _) hd₂ fun req d₃ hfirst hd₃ => ?_
  obtain ⟨hcert, rfl⟩ := handleAuthResponse_eq_ok hfirst
  refine .bind_keeps (eapRounds_keeps steady_pending exchangeNext_pending _ _ _) hd₃ fun m d₄ hrounds hd₄ => ?_
  have hcreds : d₁.s.creds = d.s.creds := (congrArg (·.creds) hfixed₁ :)
  have hnone : eapAnswers d₂.log = [] := by rw [hheard₂.answers, hlog₁, hlog]; rfl
  rw [hcreds] at hrounds
  have hconv := eapRounds_converged hrounds (by rw [hnone]; exact .start)
  refine .bind_lift hd₄ fun msk hmsk => ?_
  rw [wrapErr_eq_ok] at hmsk
  have hver : m.authChecked = true :=
    hconv.verified (deriveMSK_eq_ok hmsk).1 (deriveMSK_eq_ok hmsk).2
  have hd₅ : Pending w d.s.creds.eapUser d.s.creds.eapPass { d₄ with log := .derived m msk :: d₄.log } :=
    ⟨hd₄.established, hd₄.child, ⟨hconv.conversed, hver, hmsk⟩, hd₄.derivations⟩
  refine .bind_of_ok rfl (.bind_of_ok rfl (deref_leads hd₅ fun ike hike => ?_))
  refine .bind_keeps (exchangeNext_pending _ _) hd₅ fun final d₆ hex₆ hd₆ => ?_
  have hheard₆ := exchangeNext_eq_ok hex₆
  refine .mono (handleFinalAuthResponse_leads hd₆ final msk) fun _ d' hfin => ?_
  obtain ⟨child, hchild, hacc⟩ := hfin.child
  have hfixed₂ : d₂.s.fixed = d.s.fixed := hheard₂.fixed.trans hfixed₁
  have hfixed₆ : d₆.s.fixed = d.s.fixed := hheard₆.fixed.trans (hconv.fixed.trans hfixed₂)
  have hidr : d₆.s.remoteIDr = presented d.s.remoteIDr first := by
    rw [hheard₆.remoteIDr, hconv.remoteIDr, hheard₂.remoteIDr, hidr₁]
  rw [hidr] at hacc
  refine ⟨hfin.established, hfin.log ▸ hd₆.derivations, first, final, m, msk, child, ⟨?_,
    hcert.of_fixed hfixed₂, ?_, hmsk⟩, hchild, hacc.of_fixed hfixed₆⟩
  · obtain ⟨mid, hmid⟩ := hconv.responses
    refine ⟨mid, ?_⟩
    have hderived : responses (.derived m msk :: d₄.log) = responses d₄.log := rfl
    rw [hfin.log, hheard₆.responses, hderived, hmid, hheard₂.responses, hlog₁, hlog]
    rfl
  · obtain ⟨newer, hnewer⟩ := hheard₆.log
    exact ⟨newer, d₄.log, hfin.log.trans hnewer, hconv.conversed, hconv.conversed.serverProved hver⟩

/-- IKE_AUTH, from a session without outcome: an error leaves it without outcome, and
otherwise the responder has passed the checks of the configured mode. -/
theorem ikeAuth_leads {d : Dialing} (hd : Pending w d.s.creds.eapUser d.s.creds.eapPass d)
    (hlog : d.log = []) :
    Proc.Leads (Dial.ikeAuth c w) d
      (fun _ d' => d'.s.established = true ∧
        Derivations w d.s.creds.eapUser d.s.creds.eapPass d'.log ∧
        ∃ child, d'.s.child = some child ∧
          if d.s.creds.psk = [] then
            ∃ first final m msk, EapEvidence c w d.s d'.log first final m msk ∧
              Accepted c d.s (presented d.s.remoteIDr first) msk final child
          else
            ∃ resp, responses d'.log = [resp] ∧
              Accepted c d.s d.s.remoteIDr d.s.creds.psk resp child)
      (Pending w d.s.creds.eapUser d.s.creds.eapPass) := by
  refine .bind_of_ok rfl ?_
  cases hike : d.s.ikeSA with
  | none => exact hd
  | some ike =>
      dsimp only
      split
      · rename_i hpsk
        refine .mono (ikeAuthPSK_leads hd) fun _ d' ⟨hest, hder, resp, child, hresp, hchild, hacc⟩ => ?_
        refine ⟨hest, hder, child, hchild, ?_⟩
        rw [if_neg (List.ne_nil_of_length_pos hpsk)]
        rw [hlog] at hresp
        exact ⟨resp, hresp, hacc⟩
      · rename_i hpsk
        refine .mono (ikeAuthEAP_leads hd hlog)
          fun _ d' ⟨hest, hder, first, final, m, msk, child, hev, hchild, hacc⟩ => ?_
        refine ⟨hest, hder, child, hchild, ?_⟩
        rw [if_pos (List.length_eq_zero_iff.mp (Nat.eq_zero_of_not_pos hpsk))]
        exact ⟨first, final, m, msk, hev, hacc⟩

/-- A session before IKE_AUTH, in a run that starts there. -/
structure Fresh (d : Dialing) : Prop where
  established : d.s.established = false
  child : d.s.child = none
  log : d.log = []

theorem Fresh.pending {d : Dialing} (h : Fresh d) : Pending w user pass d :=
  ⟨h.established, h.child, by rw [h.log]; trivial⟩

/-- Whatever the responder sends, IKE_AUTH establishes the session only after the checks
of the configured mode. -/
theorem ikeAuth_sound (c : Crypto) (w : World) (d : Dialing) (hd : Fresh d) :
    (∀ e d', Dial.ikeAuth c w d = (.error e, d') → d'.s.established = false ∧ d'.s.child = none) ∧
    ∀ d', Dial.ikeAuth c w d = (.ok (), d') →
      d'.s.established = true ∧ ∃ child, d'.s.child = some child ∧
        if d.s.creds.psk = [] then
          ∃ first final m msk, EapEvidence c w d.s d'.log first final m msk ∧
            Accepted c d.s (presented d.s.remoteIDr first) msk final child
        else
          ∃ resp, responses d'.log = [resp] ∧
            Accepted c d.s d.s.remoteIDr d.s.creds.psk resp child := by
  have h := ikeAuth_leads (c := c) (w := w) hd.pending hd.log
  constructor
  · intro e d' herr
    have hp := h.of_error (congrArg Prod.fst herr)
    rw [herr] at hp
    exact ⟨hp.established, hp.child⟩
  · intro d' hok
    obtain ⟨hest, -, hchild⟩ := h.of_ok hok
    exact ⟨hest, hchild⟩

theorem Derivations.of_append {newer older : List Moment} {m : Eap.MSCHAPv2} {msk : Bytes}
    (h : Derivations w user pass (newer ++ .derived m msk :: older)) :
    Conversed w user pass m (eapAnswers older) := by
  induction newer with
  | nil => exact h.1.1
  | cons e newer ih =>
      cases e with
      | derived _ _ => exact ih h.2
      | sealed _ _ _ _ _ _ => exact ih h
      | heard _ => exact ih h
      | answered _ _ => exact ih h

theorem derived_conversed {d : Dialing} {newer older : List Moment} {m : Eap.MSCHAPv2} {msk : Bytes}
    (hd : Fresh d) (h : (Dial.ikeAuth c w d).2.log = newer ++ .derived m msk :: older) :
    Conversed w d.s.creds.eapUser d.s.creds.eapPass m (eapAnswers older) := by
  have hleads := ikeAuth_leads (c := c) (w := w) hd.pending hd.log
  rw [Proc.Leads] at hleads
  rcases hrun : Dial.ikeAuth c w d with ⟨r, d'⟩
  rw [hrun] at h hleads
  have hder : Derivations w d.s.creds.eapUser d.s.creds.eapPass d'.log := by
    cases r with
    | ok _ => exact hleads.2.1
    | error e => exact hleads.derivations
  rw [h] at hder
  exact hder.of_append

/-- Where IKE_AUTH derives a key, whatever comes of it later: the server has proved the
challenge that the key comes from exactly if it sent no challenge after its last
Success. -/
theorem msk_proved_iff (c : Crypto) (w : World) (d : Dialing) (hd : Fresh d)
    (newer older : List Moment) (m : Eap.MSCHAPv2) (msk : Bytes)
    (h : (Dial.ikeAuth c w d).2.log = newer ++ .derived m msk :: older) :
    Proved m (eapAnswers older) ↔ SuccessLast ((eapAnswers older).map Prod.fst) :=
  (derived_conversed hd h).proved_iff

end

/-! ## An instance -/

/-- A session after IKE_SA_INIT, at the initiator of `sampleSA`, and the responses that
will come. -/
def sampleAuth (creds : Credentials) (resps : List Payloads) : Dialing where
  s := { cfg := {}, creds, initiatorSPI := 1, responderSPI := 2
         ikeSA := some (sampleSA .initiator), nonceI := [1], nonceR := [2], initSAInitRsp := [3]
         messageID := 1 }
  inbox := replies 1 resps
where
  replies (k : UInt32) : List Payloads → List Arrival
    | [] => []
    | ps :: rest => .datagram (fromResponder exchangeIKEAuth flagResponse k ps) :: replies (k + 1) rest

/-- What the responder of `sampleAuth` signs. -/
def sampleSigned (id : WireID) : Bytes :=
  (sampleAuth {} []).s.responderSignedOctets .sample (sampleSA .initiator) id

/-- The last response, with AUTH keyed by a secret. -/
def sampleFinal (id : WireID) (secret : Bytes) : Payloads := [
  .idr { idType := id.type, data := id.data },
  .auth { method := Auth.methodSharedKeyMIC
          data := Auth.sharedSecretAuth (prf .sample) secret (sampleSigned id) },
  .sa { proposals := [{ number := 1, protocol := protocolESP, spi := [0, 0, 0, 9], transforms := [
    { type := transformEncr, id := encrChaCha20Poly1305 },
    { type := transformESN, id := esnNone }] }] }]

def sampleID : WireID := { type := idTypeFQDN, data := [0x61] }

def sampleChallenge : Eap.Packet :=
  { code := Eap.codeRequest, identifier := 1, type := Eap.typeMSCHAPv2
    data := [Eap.opChallenge, 1, 0, 0, 16] ++ List.replicate 16 5 }

/-- The conversation after a challenge that is answered with the nth random read. -/
def sampleChallenged (n : Nat) : Eap.MSCHAPv2 :=
  (Eap.handleChallenge sampleWorld.eap (sampleWorld.rand n) sampleChallenge
    (Eap.newMSCHAPv2 [0x75] [0x70])).2

def sampleSuccess (n : Nat) : Eap.Packet :=
  { code := Eap.codeRequest, identifier := 2, type := Eap.typeMSCHAPv2
    data := [Eap.opSuccess, 1, 0, 0] ++ (sampleChallenged n).authResponse }

def sampleMSK (n : Nat) : Bytes :=
  valueD (Eap.deriveMSK sampleWorld.eap (sampleChallenged n).passwordHashHash
    (sampleChallenged n).ntResponse) []

def eapPayload (p : Eap.Packet) : Payload := .eap { data := p.marshal }

def eapSuccess : Payload := .eap { data := [Eap.codeSuccess, 3, 0, 4] }

/-- The first response, with a certificate and the first EAP request. -/
def sampleFirst (req : Eap.Packet) : Payloads := [
  .idr { idType := sampleID.type, data := sampleID.data },
  .cert { encoding := 4, data := [7] },
  .auth { method := Auth.methodRSADigitalSignature
          data := Crypto.Sample.digest [7] (sampleSigned sampleID) },
  eapPayload req]

/-- A run of IKE_AUTH that succeeds with the key of `m`, after the answers to `reqs`. -/
def Succeeds (d : Dialing) (m : Eap.MSCHAPv2) (msk : Bytes) (reqs : List Eap.Packet) : Prop :=
  (Dial.ikeAuth .sample sampleWorld d).1 = .ok () ∧
    (Dial.ikeAuth .sample sampleWorld d).2.log.drop 2 =
      .derived m msk :: (Dial.ikeAuth .sample sampleWorld d).2.log.drop 3 ∧
    (eapAnswers ((Dial.ikeAuth .sample sampleWorld d).2.log.drop 3)).map Prod.fst = reqs

instance (d : Dialing) (m : Eap.MSCHAPv2) (msk : Bytes) (reqs : List Eap.Packet) :
    Decidable (Succeeds d m msk reqs) :=
  inferInstanceAs (Decidable (_ ∧ _))

theorem Succeeds.log {d : Dialing} {m : Eap.MSCHAPv2} {msk : Bytes} {reqs : List Eap.Packet}
    (h : Succeeds d m msk reqs) :
    (Dial.ikeAuth .sample sampleWorld d).2.log =
      (Dial.ikeAuth .sample sampleWorld d).2.log.take 2 ++
        .derived m msk :: (Dial.ikeAuth .sample sampleWorld d).2.log.drop 3 := by
  rw [← h.2.1, List.take_append_drop]

/-- An authentication with EAP. -/
def sampleEAP : Dialing :=
  sampleAuth { remoteID := sampleID, eapUser := [0x75], eapPass := [0x70] } [
    sampleFirst sampleChallenge, [eapPayload (sampleSuccess 2)], [eapSuccess],
    sampleFinal sampleID (sampleMSK 2)]

theorem succeeds_sampleEAP :
    Succeeds sampleEAP { sampleChallenged 2 with authChecked := true } (sampleMSK 2)
      [sampleSuccess 2, sampleChallenge] := by
  decide +kernel

theorem ikeAuth_sound_sampleEAP :
    Fresh sampleEAP ∧ ∃ d', Dial.ikeAuth .sample sampleWorld sampleEAP = (.ok (), d') ∧
      d'.s.established = true ∧ ∃ child, d'.s.child = some child ∧ ∃ first final m msk,
        EapEvidence .sample sampleWorld sampleEAP.s d'.log first final m msk ∧
          Accepted .sample sampleEAP.s (presented {} first) msk final child := by
  have hfresh : Fresh sampleEAP := ⟨rfl, rfl, rfl⟩
  have h := Proc.eq_ok_of_fst succeeds_sampleEAP.1
  obtain ⟨hest, hchild⟩ := (ikeAuth_sound .sample sampleWorld sampleEAP hfresh).2 _ h
  exact ⟨hfresh, _, h, hest, hchild⟩

theorem msk_proved_iff_sampleEAP :
    ∃ newer older m, (Dial.ikeAuth .sample sampleWorld sampleEAP).2.log =
      newer ++ .derived m (sampleMSK 2) :: older ∧ Proved m (eapAnswers older) := by
  refine ⟨_, _, _, succeeds_sampleEAP.log, (msk_proved_iff .sample sampleWorld sampleEAP
    ⟨rfl, rfl, rfl⟩ _ _ _ _ succeeds_sampleEAP.log).mpr ?_⟩
  exact ⟨[], sampleSuccess 2, [sampleChallenge], succeeds_sampleEAP.2.2, by decide +kernel, nofun⟩

/-- The server sends a second challenge after its Success, and ends the conversation
without another one. -/
def sampleTwoChallenges : Dialing :=
  sampleAuth { remoteID := sampleID, eapUser := [0x75], eapPass := [0x70] } [
    sampleFirst sampleChallenge, [eapPayload (sampleSuccess 2)], [eapPayload sampleChallenge],
    [eapSuccess], sampleFinal sampleID (sampleMSK 6)]

theorem msk_not_proved :
    ∃ d newer older m msk, Fresh d ∧ (Dial.ikeAuth .sample sampleWorld d).1 = .ok () ∧
      (Dial.ikeAuth .sample sampleWorld d).2.log = newer ++ .derived m msk :: older ∧
      ¬ Proved m (eapAnswers older) := by
  have hfresh : Fresh sampleTwoChallenges := ⟨rfl, rfl, rfl⟩
  have h : Succeeds sampleTwoChallenges { sampleChallenged 6 with authChecked := true } (sampleMSK 6)
      [sampleChallenge, sampleSuccess 2, sampleChallenge] := by
    decide +kernel
  refine ⟨_, _, _, _, _, hfresh, h.1, h.log, fun hproved => ?_⟩
  rw [(derived_conversed hfresh h.log).proved_iff, h.2.2] at hproved
  exact not_successLast (by decide) (by decide) hproved

end GoIpsec.Session
