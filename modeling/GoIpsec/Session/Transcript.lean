import GoIpsec.Session.SaInit

/-!
# The transcript of IKE_SA_INIT

The AUTH payloads sign the IKE_SA_INIT datagrams that the session has kept.  Here it
is shown that they are the right ones: the request is the last that was handed to the
transport, and it carries the SPI, the key and the nonce the keys are derived from; the
response is the datagram the rest was taken from.

The argument follows the requests.  `Offered` holds after each of them, whatever the
responder asked for before, and the response is handled in a state where it holds.
-/

set_option linter.dupNamespace false

namespace GoIpsec.Session

open Golang Ikemsg Ikesa

/-! ## The request can be read back -/

theorem wf_transform (type : TransformType) (id : UInt16) :
    Transform.WF { type, id } :=
  fun h => absurd rfl h

theorem wf_buildProposalForSuite {ID : Type} [SuiteID ID] (number : UInt8) (s : TransformSuite ID)
    {spi : Bytes} {groups : List UInt16} (hspi : spi.length ≤ 255) (hgroups : groups.length ≤ 100) :
    (buildProposalForSuite number s spi groups).WF := by
  refine ⟨hspi, ?_, ?_⟩
  · simp only [buildProposalForSuite, List.length_append, List.length_map, List.length_singleton]
    split <;> split <;> split <;> simp <;> omega
  · intro t ht
    simp only [buildProposalForSuite, List.mem_append, List.mem_singleton, List.mem_map] at ht
    rcases ht with rfl | ht | ht | ⟨g, -, rfl⟩ | ht
    · intro hk
      simpa using hk
    all_goals first
      | exact wf_transform _ _
      | (split at ht <;> simp only [List.mem_singleton, List.not_mem_nil] at ht
         subst ht
         exact wf_transform _ _)

theorem wf_buildProposals {ID : Type} [SuiteID ID] {suites : List (TransformSuite ID)} {spi : Bytes}
    {groups : List UInt16} (hspi : spi.length ≤ 255) (hgroups : groups.length ≤ 100) :
    ∀ p ∈ buildProposals spi suites groups, p.WF := by
  unfold buildProposals
  generalize 0 = i
  induction suites generalizing i with
  | nil => intro p hp; cases hp
  | cons s suites ih =>
      intro p hp
      rcases List.mem_cons.mp hp with rfl | hp
      · exact wf_buildProposalForSuite _ s hspi hgroups
      · exact ih (i + 1) p hp

/-- The payloads of a request, each with what makes it readable. -/
theorem wf_of_mem_saInitRequest {w : World} {s : Handshake} {dh : DH} {cookie : Bytes}
    (hnonce : s.nonceI.length = nonceLen) {p : Payload}
    (hp : p ∈ (s.saInitRequest w dh cookie).payloads)
    (hfits : ∃ body, p.marshalBody = .ok body ∧ body.length ≤ 65531) :
    (p.WF ∧ p.bodySize ≤ 65531) ∧ p.isSK = false := by
  have hnotify (type : NotifyType) (data : Bytes)
      (h : p = .notify { protocol := protocolNone, type, data }) :
      (p.WF ∧ p.bodySize ≤ 65531) ∧ p.isSK = false := by
    subst h
    have hwf : Payload.WF (.notify { protocol := protocolNone, type, data }) := Nat.zero_le 255
    exact ⟨⟨hwf, RoundTrips.size_le (NotifyPayload.roundTrips hwf) hfits⟩, rfl⟩
  simp only [Handshake.saInitRequest, Handshake.natDetection, List.mem_append, List.mem_cons,
    List.not_mem_nil, or_false] at hp
  rcases hp with hp | (rfl | rfl | rfl) | hp | hp
  · split at hp
    · exact hnotify _ _ (List.mem_singleton.mp hp)
    · cases hp
  · have hwf : ∀ q ∈ buildProposals [] s.enabledIKESuites [dhX25519, dhMODP2048], q.WF :=
      wf_buildProposals (by simp) (by simp)
    exact ⟨⟨hwf, RoundTrips.size_le (SAPayload.roundTrips hwf) hfits⟩, rfl⟩
  · exact ⟨⟨trivial, RoundTrips.size_le (KEPayload.roundTrips _) hfits⟩, rfl⟩
  · have hwf : Ikemsg.minNonceLen ≤ s.nonceI.length ∧ s.nonceI.length ≤ maxNonceLen := by
      rw [hnonce]
      decide
    exact ⟨⟨hwf, RoundTrips.size_le (NoncePayload.roundTrips hwf) hfits⟩, rfl⟩
  · exact hnotify _ _ hp
  · exact hnotify _ _ hp

/-- The encoding of a request carries the request. -/
theorem parse_saInitRequest {w : World} {s : Handshake} {dh : DH} {cookie raw : Bytes}
    (hnonce : s.nonceI.length = nonceLen) (h : (s.saInitRequest w dh cookie).marshal = .ok raw) :
    parse raw = .ok (s.saInitRequest w dh cookie) := by
  generalize hm : s.saInitRequest w dh cookie = m at h ⊢
  have hchain : ∃ body, marshalChain m.payloads = .ok body := by
    rw [Message.marshal, bind_eq_ok] at h
    obtain ⟨⟨first, body⟩, hb, -⟩ := h
    exact ⟨body, (Payloads.marshal_eq_ok.mp hb).2⟩
  obtain ⟨body, hchain⟩ := hchain
  have hall : ∀ p ∈ m.payloads, (p.WF ∧ p.bodySize ≤ 65531) ∧ p.isSK = false := by
    intro p hp
    have hfits := length_le_of_marshalChain hchain p hp
    rw [← hm] at hp
    exact wf_of_mem_saInitRequest hnonce hp hfits
  have hcount : m.payloads.length ≤ 6 := by
    rw [← hm]
    simp only [Handshake.saInitRequest, Handshake.natDetection]
    split <;> simp
  have hsize : m.payloads.size ≤ m.payloads.length * 65535 := by
    unfold Payloads.size
    rw [← List.length_map fun p => genericHeaderLen + p.bodySize]
    refine List.sum_le_card_nsmul _ _ fun n hn => ?_
    obtain ⟨p, hp, rfl⟩ := List.mem_map.mp hn
    have := (hall p hp).1.2
    rw [genericHeaderLen]
    omega
  have hwf : m.WF := by
    refine ⟨⟨fun p hp => (hall p hp).1, fun p hp => (hall p (List.dropLast_subset _ hp)).2⟩, ?_⟩
    rw [headerLen]
    omega
  obtain ⟨raw', hraw', hparse⟩ := parse_marshal m hwf
  cases h.symm.trans hraw'
  exact hparse

/-! ## The requests -/

section

variable {c : Crypto} {w : World}

theorem buildSAInit_eq_ok {s : Handshake} {cookie raw : Bytes} {m : Message}
    (h : s.buildSAInit w cookie = .ok (m, raw)) :
    ∃ dh, s.dh = some dh ∧ (s.saInitRequest w dh cookie).marshal = .ok raw := by
  unfold Handshake.buildSAInit at h
  split at h
  · cases h
  · rename_i dh hdh
    simp only [bind_eq_ok, wrapErr_eq_ok, pure_eq_ok, Except.ok.injEq, Prod.mk.injEq] at h
    obtain ⟨raw', hraw, -, rfl⟩ := h
    exact ⟨dh, hdh, hraw⟩

/-- What holds after a request was answered: `inbox₀` is what was to be received at the
start. -/
structure Offered (w : World) (inbox₀ : List Arrival) (d : Dialing) : Prop where
  natt : d.s.nattMode = false
  nonce : d.s.nonceI.length = nonceLen
  request : ∃ dh cookie, d.s.dh = some dh ∧
    (d.s.saInitRequest w dh cookie).marshal = .ok d.s.initSAInitReq
  last : d.sent.head? = some d.s.initSAInitReq
  response : ∃ pre, inbox₀ = pre ++ .datagram d.s.initSAInitRsp :: d.inbox

theorem Offered.suffix {inbox₀ : List Arrival} {d : Dialing} (h : Offered w inbox₀ d) :
    d.inbox <:+ inbox₀ := by
  obtain ⟨pre, hpre⟩ := h.response
  exact ⟨pre ++ [.datagram d.s.initSAInitRsp], by rw [hpre, List.append_assoc]; rfl⟩

theorem sendSAInit_offered {inbox₀ : List Arrival} {cookie rsp : Bytes} {d d' : Dialing}
    (hnatt : d.s.nattMode = false) (hnonce : d.s.nonceI.length = nonceLen)
    (hin : d.inbox <:+ inbox₀) (h : Dial.sendSAInit w cookie d = (.ok rsp, d')) :
    Offered w inbox₀ d' ∧ d'.s.initSAInitRsp = rsp := by
  unfold Dial.sendSAInit at h
  obtain ⟨s, d₁, hs, h⟩ := Proc.bind_eq_ok h
  cases hs
  obtain ⟨⟨m, req⟩, d₂, hlift, h⟩ := Proc.bind_eq_ok h
  obtain ⟨hbuild, rfl⟩ := Proc.lift_eq_ok hlift
  obtain ⟨_, d₃, hset, h⟩ := Proc.bind_eq_ok h
  cases hset
  obtain ⟨rsp', d₄, hex, h⟩ := Proc.bind_eq_ok h
  obtain ⟨_, d₅, hset, h⟩ := Proc.bind_eq_ok h
  cases hset
  cases h
  obtain ⟨rsp', d₆, hrsp, hret⟩ := Proc.bind_eq_ok (Proc.wrap_eq_ok.mp hex)
  cases hret
  obtain ⟨⟨sent, inbox, rfl⟩, hlast, pre, raw, hpre, hraw⟩ := Dial.exchange_eq_ok hrsp
  obtain ⟨dh, hdh, hmarshal⟩ := buildSAInit_eq_ok hbuild
  dsimp only at hlast hpre hraw
  rw [hnatt] at hraw
  cases (Dial.matching_eq_some hraw).1
  obtain ⟨before, hbefore⟩ := hin
  refine ⟨⟨hnatt, hnonce, ⟨dh, cookie, hdh, hmarshal⟩, ?_, ⟨before ++ pre, ?_⟩⟩, rfl⟩
  · rw [hlast, Handshake.frame, hnatt]
    rfl
  · rw [← hbefore, hpre, List.append_assoc]

theorem retryCookie_offered {inbox₀ : List Arrival} {rsp : Bytes} {r : Bytes × Bytes}
    {d d' : Dialing} (hd : Offered w inbox₀ d) (h : Dial.retryCookie w rsp d = (.ok r, d')) :
    Offered w inbox₀ d' := by
  unfold Dial.retryCookie at h
  cases hcookie : saInitCookie rsp with
  | none =>
      simp only [hcookie] at h
      cases h
      exact hd
  | some cookie =>
      simp only [hcookie] at h
      obtain ⟨rsp', d₁, hsend, h⟩ := Proc.bind_eq_ok h
      cases h
      exact (sendSAInit_offered hd.natt hd.nonce hd.suffix hsend).1

theorem randBytes_eq_ok {n : Nat} {b : Bytes} {d d' : Dialing}
    (h : Dial.randBytes w n d = (.ok b, d')) : b.length = n ∧ d' = { d with reads := d.reads + 1 } := by
  obtain ⟨r, d₁, hr, h⟩ := Proc.bind_eq_ok h
  cases hr
  obtain ⟨hfull, rfl⟩ := Proc.lift_eq_ok h
  exact ⟨RandRead.full_length hfull, rfl⟩

theorem newDHFor_eq_ok {g : UInt16} {dh : DH} {d d' : Dialing}
    (h : Dial.newDHFor c w g d = (.ok dh, d')) : d' = { d with reads := d.reads + 1 } := by
  obtain ⟨r, d₁, hr, h⟩ := Proc.bind_eq_ok h
  cases hr
  exact (congrArg Prod.snd h).symm

theorem retryInvalidKE_offered {inbox₀ : List Arrival} {cookie rsp : Bytes} {d d' : Dialing}
    (hd : Offered w inbox₀ d) (h : Dial.retryInvalidKE c w cookie rsp d = (.ok (), d')) :
    Offered w inbox₀ d' := by
  unfold Dial.retryInvalidKE at h
  cases hke : saInitInvalidKE rsp with
  | none =>
      simp only [hke] at h
      cases h
      exact hd
  | some g =>
      simp only [hke] at h
      obtain ⟨dh, d₁, hdh, h⟩ := Proc.bind_eq_ok h
      obtain ⟨-, rfl⟩ := Dial.deref_eq_ok hdh
      obtain ⟨-, h⟩ := Proc.guard_eq_ok h
      -- The key is replaced before the request with it is built.
      obtain ⟨dh', d₂, hnew, h⟩ := Proc.bind_eq_ok h
      cases newDHFor_eq_ok hnew
      obtain ⟨_, d₃, hset, h⟩ := Proc.bind_eq_ok h
      cases hset
      obtain ⟨rsp₁, d₄, hsend, h⟩ := Proc.bind_eq_ok h
      have h₄ : Offered w inbox₀ d₄ := by
        refine (sendSAInit_offered ?_ ?_ ?_ hsend).1
        exacts [hd.natt, hd.nonce, hd.suffix]
      cases hcookie : saInitCookie rsp₁ with
      | none =>
          simp only [hcookie] at h
          cases h
          exact h₄
      | some cookie' =>
          simp only [hcookie] at h
          obtain ⟨rsp₂, d₅, hsend', h⟩ := Proc.bind_eq_ok h
          cases h
          exact (sendSAInit_offered h₄.natt h₄.nonce h₄.suffix hsend').1

/-! ## The response -/

/-- What the loop over the payloads of a response has taken from those in `ps`. -/
structure Taken (dh : DH) (ps : Payloads) (r : SaInitResponse) (s : Handshake) : Prop where
  ke : r.gotKE = true → ∃ p, lastOf Payload.ke? ps = some p ∧ s.peerDHPub = p.data
  nonce : r.gotNonce = true → ∃ p, lastOf Payload.nonce? ps = some p ∧ s.nonceR = p.data
  suite : ∀ suite, r.suite = some suite → ∃ p prop, lastOf Payload.sa? ps = some p ∧
    p.proposals.head? = some prop ∧ selectedSuite prop s.enabledIKESuites = some suite ∧
      selectedDHGroup prop = dh.group

theorem Taken.nil (dh : DH) (s : Handshake) : Taken dh [] {} s := ⟨nofun, nofun, nofun⟩

/-- A payload of another kind adds nothing. -/
theorem Taken.skip {dh : DH} {ps : Payloads} {r r' : SaInitResponse} {s : Handshake} {p : Payload}
    (h : Taken dh ps r s) (hsa : p.sa? = none) (hke : p.ke? = none) (hnonce : p.nonce? = none)
    (hr : r'.suite = r.suite ∧ r'.gotKE = r.gotKE ∧ r'.gotNonce = r.gotNonce) :
    Taken dh (ps ++ [p]) r' s := by
  obtain ⟨hs, hk, hn⟩ := hr
  constructor
  · rw [lastOf_concat_of_none hke, hk]
    exact h.ke
  · rw [lastOf_concat_of_none hnonce, hn]
    exact h.nonce
  · rw [lastOf_concat_of_none hsa, hs]
    exact h.suite

theorem saInitPayload_taken {dh : DH} {ps : Payloads} {r r' : SaInitResponse} {p : Payload}
    {d d' : Dialing} (ht : Taken dh ps r d.s) (h : Dial.saInitPayload dh r p d = (.ok r', d')) :
    Taken dh (ps ++ [p]) r' d'.s ∧
      ∃ peerDHPub nonceR, d' = { d with s := { d.s with peerDHPub, nonceR } } := by
  cases p with
  | sa p =>
      unfold Dial.saInitPayload at h
      cases hprops : p.proposals with
      | nil =>
          simp only [hprops] at h
          cases congrArg Prod.fst h
      | cons prop rest =>
          simp only [hprops] at h
          obtain ⟨s, d₁, hs, h⟩ := Proc.bind_eq_ok h
          cases hs
          cases hsel : selectedSuite prop d.s.enabledIKESuites with
          | none =>
              simp only [hsel] at h
              cases congrArg Prod.fst h
          | some suite =>
              by_cases hg : selectedDHGroup prop = dh.group
              · simp only [hsel, hg, ne_eq, not_true_eq_false, if_false] at h
                cases h
                refine ⟨⟨?_, ?_, fun suite' hsuite' => ?_⟩, _, _, rfl⟩
                · rw [lastOf_concat_of_none rfl]
                  exact ht.ke
                · rw [lastOf_concat_of_none rfl]
                  exact ht.nonce
                · cases hsuite'
                  exact ⟨p, prop, by rw [lastOf_concat]; rfl, by rw [hprops]; rfl, hsel, hg⟩
              · simp only [hsel, hg, ne_eq, not_false_eq_true, if_true] at h
                cases congrArg Prod.fst h
  | ke p =>
      cases h
      refine ⟨⟨fun _ => ⟨p, by rw [lastOf_concat]; rfl, rfl⟩, ?_, ?_⟩, _, _, rfl⟩
      · rw [lastOf_concat_of_none rfl]
        exact ht.nonce
      · rw [lastOf_concat_of_none rfl]
        exact ht.suite
  | nonce p =>
      cases h
      refine ⟨⟨?_, fun _ => ⟨p, by rw [lastOf_concat]; rfl, rfl⟩, ?_⟩, _, _, rfl⟩
      · rw [lastOf_concat_of_none rfl]
        exact ht.ke
      · rw [lastOf_concat_of_none rfl]
        exact ht.suite
  | _ =>
      cases h
      exact ⟨ht.skip rfl rfl rfl ⟨rfl, rfl, rfl⟩, _, _, rfl⟩

theorem saInitPayloads_taken {dh : DH} {ps : Payloads} {r r' : SaInitResponse} {d d' : Dialing}
    {done : Payloads} (ht : Taken dh done r d.s)
    (h : Dial.saInitPayloads dh r ps d = (.ok r', d')) :
    Taken dh (done ++ ps) r' d'.s ∧
      ∃ peerDHPub nonceR, d' = { d with s := { d.s with peerDHPub, nonceR } } := by
  induction ps generalizing done r d with
  | nil =>
      cases h
      rw [List.append_nil]
      exact ⟨ht, _, _, rfl⟩
  | cons p ps ih =>
      obtain ⟨r₁, d₁, hp, h⟩ := Proc.bind_eq_ok h
      obtain ⟨ht₁, pub, nonce, rfl⟩ := saInitPayload_taken ht hp
      obtain ⟨ht', pub', nonce', rfl⟩ := ih ht₁ h
      rw [List.append_assoc] at ht'
      exact ⟨ht', pub', nonce', rfl⟩

/-- A response that is accepted, and the state it leaves. -/
theorem handleSAInitResponse_eq_ok {raw : Bytes} {d d' : Dialing}
    (h : Dial.handleSAInitResponse c w raw d = (.ok (), d')) :
    ∃ m dh r, parse raw = .ok m ∧ d.s.dh = some dh ∧
      (m.exchange = exchangeIKESAInit ∧ m.flags.isResponse = true ∧
        m.initiatorSPI = d.s.initiatorSPI ∧ m.messageID = 0 ∧ m.responderSPI ≠ 0) ∧
      Taken dh m.payloads r d'.s ∧ r.gotKE = true ∧ r.gotNonce = true ∧
      ∃ suite shared ike, r.suite = some suite ∧ dh.shared c d'.s.peerDHPub = .ok shared ∧
        derive c suite.id .initiator d'.s.initiatorSPI d'.s.responderSPI d'.s.nonceI d'.s.nonceR
          shared = .ok ike ∧
        d' = { d with s := { d.s with
          responderSPI := m.responderSPI, peerDHPub := d'.s.peerDHPub, nonceR := d'.s.nonceR,
          natDetected := d'.s.natDetected, ikeSA := some ike, ikeDHGroup := dh.group } } := by
  unfold Dial.handleSAInitResponse at h
  obtain ⟨m, d₁, hm, h⟩ := Proc.bind_eq_ok h
  obtain ⟨hparse, rfl⟩ := Proc.lift_eq_ok hm
  obtain ⟨s, d₂, hs, h⟩ := Proc.bind_eq_ok h
  cases hs
  dsimp only at h
  obtain ⟨hexch, h⟩ := Proc.guard_eq_ok h
  obtain ⟨hresp, h⟩ := Proc.guard_eq_ok h
  obtain ⟨hspi, h⟩ := Proc.guard_eq_ok h
  obtain ⟨hid, h⟩ := Proc.guard_eq_ok h
  obtain ⟨hspir, h⟩ := Proc.guard_eq_ok h
  obtain ⟨_, d₃, hset, h⟩ := Proc.bind_eq_ok h
  cases hset
  obtain ⟨dh, d₄, h₄, h⟩ := Proc.bind_eq_ok h
  obtain ⟨hdh, rfl⟩ := Dial.deref_eq_ok h₄
  obtain ⟨r, d₅, hloop, h⟩ := Proc.bind_eq_ok h
  obtain ⟨ht, pub, nonce, rfl⟩ := saInitPayloads_taken (Taken.nil dh _) hloop
  cases herr : r.notifyErr with
  | some text =>
      simp only [herr] at h
      cases congrArg Prod.fst h
  | none =>
      cases hsuite : r.suite with
      | none =>
          simp only [herr, hsuite] at h
          cases congrArg Prod.fst h
      | some suite =>
          simp only [herr, hsuite] at h
          obtain ⟨hgot, h⟩ := Proc.guard_eq_ok h
          obtain ⟨_, d₆, hnat, h⟩ := Proc.bind_eq_ok h
          cases hnat
          obtain ⟨s, d₇, hs, h⟩ := Proc.bind_eq_ok h
          cases hs
          obtain ⟨shared, d₈, h₈, h⟩ := Proc.bind_eq_ok h
          obtain ⟨hshared, rfl⟩ := Proc.lift_eq_ok h₈
          obtain ⟨ike, d₉, h₉, h⟩ := Proc.bind_eq_ok h
          obtain ⟨hike, rfl⟩ := Proc.lift_eq_ok h₉
          cases h
          rw [Bool.or_eq_true, not_or, Bool.not_eq_true', Bool.not_eq_true', Bool.not_eq_false,
            Bool.not_eq_false] at hgot
          refine ⟨m, dh, r, wrapErr_eq_ok.mp hparse, hdh, ⟨not_ne_iff.mp hexch, by simpa using hresp,
            not_ne_iff.mp hspi, not_ne_iff.mp hid, hspir⟩, ⟨ht.ke, ht.nonce, ht.suite⟩, hgot.1, hgot.2,
            suite, shared, ike, hsuite, wrapErr_eq_ok.mp hshared, wrapErr_eq_ok.mp hike, rfl⟩

/-! ## The whole exchange -/

theorem saInitKeys_eq_ok {d d' : Dialing} (h : Dial.saInitKeys c w d = (.ok (), d')) :
    d'.inbox = d.inbox ∧ d'.s.nattMode = d.s.nattMode ∧ d'.s.nonceI.length = nonceLen := by
  unfold Dial.saInitKeys at h
  obtain ⟨spi, d₁, hspi, h⟩ := Proc.bind_eq_ok h
  obtain ⟨_, d₂, hset, h⟩ := Proc.bind_eq_ok h
  cases hset
  obtain ⟨dh, d₃, hdh, h⟩ := Proc.bind_eq_ok h
  obtain ⟨_, d₄, hset, h⟩ := Proc.bind_eq_ok h
  cases hset
  obtain ⟨nonce, d₅, hnonce, h⟩ := Proc.bind_eq_ok h
  cases h
  obtain ⟨b, d₆, hb, hspi⟩ := Proc.bind_eq_ok hspi
  obtain ⟨-, rfl⟩ := Proc.lift_eq_ok hspi
  obtain ⟨_, rfl⟩ := randBytes_eq_ok hb
  cases newDHFor_eq_ok hdh
  obtain ⟨hlen, rfl⟩ := randBytes_eq_ok hnonce
  exact ⟨rfl, rfl, hlen⟩

/-- The datagrams that are kept and the keys that were derived fit together.  The
handshake went from `d` to `d'` with the key pair `dh`; `req` and `rsp` are the messages
in the datagrams. -/
structure Bound (c : Crypto) (d d' : Dialing) (dh : DH) (req rsp : Message) : Prop where
  ownKey : d'.s.dh = some dh
  /-- The request is the last datagram that was handed to the transport. -/
  reqLast : d'.sent.head? = some d'.s.initSAInitReq
  reqParse : parse d'.s.initSAInitReq = .ok req
  reqExchange : req.exchange = exchangeIKESAInit
  reqSPI : req.initiatorSPI = d'.s.initiatorSPI
  reqKE : req.payloads.filterMap Payload.ke? = [{ group := dh.group, data := dh.pub }]
  reqNonce : req.payloads.filterMap Payload.nonce? = [{ data := d'.s.nonceI }]
  /-- The response is the last datagram that was received. -/
  rspLast : ∃ pre, d.inbox = pre ++ .datagram d'.s.initSAInitRsp :: d'.inbox
  rspParse : parse d'.s.initSAInitRsp = .ok rsp
  rspExchange : rsp.exchange = exchangeIKESAInit
  rspFlag : rsp.flags.isResponse = true
  rspSPI : rsp.initiatorSPI = d'.s.initiatorSPI
  rspID : rsp.messageID = 0
  rspSPIr : rsp.responderSPI ≠ 0
  responderSPI : d'.s.responderSPI = rsp.responderSPI
  nonceR : lastOf Payload.nonce? rsp.payloads = some { data := d'.s.nonceR }
  peerDHPub : ∃ group, lastOf Payload.ke? rsp.payloads = some { group, data := d'.s.peerDHPub }
  /-- The suite is the one the response selected, and so is the group. -/
  keys : ∃ sa prop suite shared ike,
    lastOf Payload.sa? rsp.payloads = some sa ∧ sa.proposals.head? = some prop ∧
      selectedSuite prop d'.s.enabledIKESuites = some suite ∧
      selectedDHGroup prop = d'.s.ikeDHGroup ∧ dh.shared c d'.s.peerDHPub = .ok shared ∧
      derive c suite.id .initiator d'.s.initiatorSPI d'.s.responderSPI d'.s.nonceI d'.s.nonceR
        shared = .ok ike ∧ d'.s.ikeSA = some ike
  group : d'.s.ikeDHGroup = dh.group

/-- Whatever the responder does, the exchange ends with a transcript that fits the keys,
or with an error. -/
theorem ikeSAInit_bound (cfg : Config) (creds : Credentials) (d d' : Dialing)
    (hnew : d.s = .new cfg creds) (h : Dial.ikeSAInit c w d = (.ok (), d')) :
    ∃ dh req rsp, Bound c d d' dh req rsp := by
  unfold Dial.ikeSAInit at h
  obtain ⟨s, d₁, hs, h⟩ := Proc.bind_eq_ok h
  cases hs
  obtain ⟨_, d₂, hcheck, h⟩ := Proc.bind_eq_ok h
  obtain ⟨-, rfl⟩ := Proc.lift_eq_ok hcheck
  obtain ⟨_, d₃, hkeys, h⟩ := Proc.bind_eq_ok h
  obtain ⟨rsp₁, d₄, hsend, h⟩ := Proc.bind_eq_ok h
  obtain ⟨r, d₅, hcookie, h⟩ := Proc.bind_eq_ok h
  obtain ⟨_, d₆, hke, h⟩ := Proc.bind_eq_ok h
  obtain ⟨s, d₇, hs, h⟩ := Proc.bind_eq_ok h
  cases hs
  obtain ⟨_, d₈, hhandle, h⟩ := Proc.bind_eq_ok h
  obtain ⟨_, d₉, hmigrate, h⟩ := Proc.bind_eq_ok h
  cases hmigrate
  cases h
  obtain ⟨hin, hnatt, hnonce⟩ := saInitKeys_eq_ok hkeys
  have h₄ : Offered w d.inbox d₄ := by
    refine (sendSAInit_offered ?_ hnonce ?_ hsend).1
    · rw [hnatt, hnew]
      rfl
    · rw [hin]
  have h₆ : Offered w d.inbox d₆ := retryInvalidKE_offered (retryCookie_offered h₄ hcookie) hke
  obtain ⟨m, dh, r, hparse, hdh, ⟨hexch, hresp, hspi, hid, hspir⟩, ht, hgotKE, hgotNonce, suite,
    shared, ike, hsuite, hshared, hike, hd₈⟩ := handleSAInitResponse_eq_ok hhandle
  generalize hpub : d₈.s.peerDHPub = pub at hd₈ hshared
  generalize hnr : d₈.s.nonceR = nonceR at hd₈ hike
  generalize d₈.s.natDetected = nat at hd₈
  subst hd₈
  obtain ⟨ke, hlastKE, hpub'⟩ := ht.ke hgotKE
  obtain ⟨nonce, hlastNonce, hnr'⟩ := ht.nonce hgotNonce
  obtain ⟨sa, prop, hlastSA, hhead, hselect, hgroup⟩ := ht.suite suite hsuite
  obtain ⟨dh', cookie, hdh', hmarshal⟩ := h₆.request
  cases hdh.symm.trans hdh'
  exact ⟨dh, _, m, {
    ownKey := hdh
    reqLast := h₆.last
    reqParse := parse_saInitRequest h₆.nonce hmarshal
    reqExchange := rfl
    reqSPI := rfl
    reqKE := by
      simp only [Handshake.saInitRequest, Handshake.natDetection]
      split <;> rfl
    reqNonce := by
      simp only [Handshake.saInitRequest, Handshake.natDetection]
      split <;> rfl
    rspLast := h₆.response
    rspParse := hparse
    rspExchange := hexch
    rspFlag := hresp
    rspSPI := hspi
    rspID := hid
    rspSPIr := hspir
    responderSPI := rfl
    nonceR := hlastNonce.trans (congrArg (fun b => some (NoncePayload.mk b)) hnr'.symm)
    peerDHPub := ⟨ke.group,
      hlastKE.trans (congrArg (fun b => some (KEPayload.mk ke.group b)) hpub'.symm)⟩
    keys := ⟨sa, prop, suite, shared, ike, hlastSA, hhead, hselect, hgroup, hshared, hike, rfl⟩
    group := rfl }⟩

end

/-- A responder that asks for a cookie, for the other group, and for a cookie again,
before it answers. -/
def sampleDial : Dialing where
  s := .new {} { psk := [1] }
  inbox := [
    response 0 [.notify { protocol := 0, type := notifyCookie, data := [1, 2, 3] }],
    response 0 [.notify { protocol := 0, type := notifyInvalidKEPayload, data := [0, 14] }],
    .failed "timeout",
    response 0 [.notify { protocol := 0, type := notifyCookie, data := [4] }],
    response 9 [
      .sa { proposals := [{ number := 1, protocol := protocolIKE, spi := [], transforms := [
        { type := transformEncr, id := encrChaCha20Poly1305 },
        { type := transformPRF, id := prfHMACSHA2256 },
        { type := transformDH, id := dhMODP2048 }] }] },
      .ke { group := dhMODP2048, data := List.replicate 255 0 ++ [4] },
      .nonce { data := List.replicate 32 7 }]]
where
  /-- A response to our SPI. -/
  response (spir : UInt64) (payloads : Payloads) : Arrival :=
    .datagram (valueD (Message.marshal {
      initiatorSPI := 0x0001020304050607, responderSPI := spir, exchange := exchangeIKESAInit,
      flags := flagResponse, messageID := 0, payloads }) [])

theorem ikeSAInit_bound_sampleDial :
    ∃ d', Dial.ikeSAInit .sample sampleWorld sampleDial = (.ok (), d') ∧
      ∃ dh req rsp, Bound .sample sampleDial d' dh req rsp := by
  have h : (Dial.ikeSAInit .sample sampleWorld sampleDial).1 = .ok () := by decide +kernel
  exact ⟨_, Proc.eq_ok_of_fst h,
    ikeSAInit_bound {} { psk := [1] } sampleDial _ rfl (Proc.eq_ok_of_fst h)⟩

end GoIpsec.Session
