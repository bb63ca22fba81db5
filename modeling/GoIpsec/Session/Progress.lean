import GoIpsec.Session.Acceptance
import GoIpsec.Session.Completion
import GoIpsec.Session.Encodable
import GoIpsec.Session.Endpoints

/-!
# Exchanges that come to their end

Two endpoints agree on every Child SA that they install.  This would also hold of endpoints
that refuse each other's requests.  Here is the other half: if the request for a Child SA
reaches an endpoint that has no rekey of its own under way, and the response reaches the
endpoint that asked, both have installed the new Child SA, under the suites that they have
in common.

Nothing is asked of what went before: it is any run of the two endpoints, over a network
that loses, repeats and delays what they send.
-/

set_option linter.dupNamespace false

namespace GoIpsec.Session

open Golang Ikemsg Ikesa

/-! ## Suites in common -/

section

variable {ID : Type} [SuiteID ID] {suites enabled table : List (TransformSuite ID)} {s t : TransformSuite ID}
  {spi : Bytes} {group : UInt16} {p : Proposal}

/-- A proposal of ours can be chosen by a responder that runs its suite. -/
theorem acceptable_build (number : UInt8) (hspi : spi.length = s.spiLen) :
    Acceptable s group (buildProposalForSuite number s spi (answerGroups group)) where
  offers := by
    have hsel := isSelectionFor_iff.mpr (narrowed_build number s spi group)
    simp only [isSelectionFor, Bool.and_eq_true] at hsel
    exact suiteMatches_iff.mp hsel.1.1.1.1.1
  spi := hspi
  dh hgroup := ⟨_, mem_build.mpr (.inr (.inr (.inr (.inl ⟨hgroup, rfl⟩)))), rfl, rfl⟩

/-- There is one proposal for each suite, and no other. -/
theorem mem_buildProposalsFrom {groups : List UInt16} {i : Nat} :
    p ∈ buildProposalsFrom i spi groups suites →
      ∃ number, ∃ s ∈ suites, p = buildProposalForSuite number s spi groups := by
  induction suites generalizing i with
  | nil => exact nofun
  | cons s suites ih =>
      intro hp
      rcases List.mem_cons.mp hp with rfl | hp
      · exact ⟨_, s, List.mem_cons_self, rfl⟩
      · obtain ⟨number, t, ht, rfl⟩ := ih hp
        exact ⟨number, t, List.mem_cons_of_mem _ ht, rfl⟩

theorem exists_mem_buildProposalsFrom {groups : List UInt16} {i : Nat} (hs : s ∈ suites) :
    ∃ number, buildProposalForSuite number s spi groups ∈ buildProposalsFrom i spi groups suites := by
  induction suites generalizing i with
  | nil => cases hs
  | cons t suites ih =>
      rcases List.mem_cons.mp hs with rfl | hs
      · exact ⟨_, List.mem_cons_self⟩
      · obtain ⟨number, hmem⟩ := ih hs
        exact ⟨number, List.mem_cons_of_mem _ hmem⟩

/-- A responder that runs one of our suites chooses one of them. -/
theorem selectProposal_offered (hs : s ∈ suites) (hs' : s ∈ enabled) (hspi : spi.length = s.spiLen) :
    ∃ prop suite, selectProposal { proposals := buildProposals spi suites (answerGroups group) } enabled group =
      some (prop, suite) := by
  cases hselect : selectProposal { proposals := buildProposals spi suites (answerGroups group) } enabled group with
  | some choice => exact ⟨choice.1, choice.2, rfl⟩
  | none =>
      obtain ⟨number, hmem⟩ := exists_mem_buildProposalsFrom hs
      exact absurd (acceptable_build number hspi) (selectProposal_eq_none_iff.mp hselect s hs' _ hmem)

/-- What it chooses is one of ours. -/
theorem mem_of_selectProposal (hdistinct : DistinctEncr table) (hsuites : ∀ s ∈ suites, s ∈ table)
    (henabled : ∀ s ∈ enabled, s ∈ table)
    (h : selectProposal { proposals := buildProposals spi suites (answerGroups group) } enabled group =
      some (p, s)) : s ∈ suites := by
  obtain ⟨hs, hp, hmatch, -⟩ := selectProposal_eq_some h
  obtain ⟨number, t, ht, rfl⟩ := mem_buildProposalsFrom hp
  obtain ⟨u, hu, hencr, hid, -⟩ := (suiteMatches_iff.mp hmatch).encr
  rcases mem_build.mp hu with rfl | ⟨-, rfl⟩ | ⟨-, rfl⟩ | ⟨-, rfl⟩ | ⟨-, rfl⟩
  · rwa [hdistinct t (hsuites t ht) s (henabled s hs) hid.symm]
  · cases hencr
  · cases hencr
  · cases hencr
  · cases hencr

end

/-! ## The key exchange -/

section

variable {c : Crypto} {env : Env} {rand : RandRead} {dh : Option DH}

/-- The key exchange of a request, if it has one, succeeds at both ends when the responder
draws its key pair from this read. -/
def KeysMeet (c : Crypto) (rand : RandRead) (dh : Option DH) : Prop :=
  ∀ x, dh = some x → ∃ y secret secret', newDH c x.group rand = .ok y ∧
    y.shared c x.pub = .ok secret ∧ x.shared c y.pub = .ok secret'

theorem KeysMeet.draw {n : Nat} (h : KeysMeet c (env.rand n) dh) :
    ∃ pfs, drawPFS c env n (dh.map fun d => { group := d.group, data := d.pub }) = .ok pfs ∧
      Agrees c (dh.map fun d => { group := d.group, data := d.pub }) pfs ∧
      ∀ x, dh = some x → ∃ y secret secret', pfs = some (y, secret) ∧ x.shared c y.pub = .ok secret' := by
  cases dh with
  | none => exact ⟨none, rfl, .plain, nofun⟩
  | some x =>
      obtain ⟨y, secret, secret', hy, hsecret, hsecret'⟩ := h x rfl
      refine ⟨some (y, secret), ?_, .pfs hy hsecret, ?_⟩
      · simp only [drawPFS, Option.map_some, hy, ok_bind, hsecret]
        rfl
      · rintro _ ⟨⟩
        exact ⟨y, secret, secret', rfl, hsecret'⟩

theorem supported_of_newDH {group : UInt16} {x : DH} (h : newDH c group rand = .ok x) :
    supportedDHGroup group = true := by
  unfold newDH at h
  split at h
  · rename_i hgroup
    rw [hgroup]
    rfl
  · split at h
    · rename_i hgroup
      rw [hgroup]
      rfl
    · cases h

/-- The groups of a proposal of ours are those of the key exchange. -/
theorem groups_of_newDH (h : ∀ d, dh = some d → ∃ group rand, newDH c group rand = .ok d) :
    dh.toList.map DH.group = answerGroups ((dh.map DH.group).getD 0) ∧
      (dh.any fun d => !supportedDHGroup d.group) = false := by
  cases dh with
  | none => exact ⟨rfl, rfl⟩
  | some d =>
      obtain ⟨group, rand, hd⟩ := h d rfl
      obtain ⟨rfl, hne⟩ := group_of_newDH hd
      exact ⟨by simp [answerGroups, hne], by simp [supported_of_newDH hd]⟩

end

/-! ## The responder -/

section

variable {c : Crypto} {env : Env} {d : Drive} {msgID : UInt32} {inner : Payloads}

/-- The current IKE SA, as an encoding under it uses it. -/
def Session.curIKE (s : Session) : IkeCtx := { sa := s.ikeSA, spii := s.initiatorSPI, spir := s.responderSPI }

theorem encodeIn_apply {exchange : ExchangeType} {flags : Flags} {raw : Bytes} {sa : IKESA}
    (h : encodeSKWith c d.s.ikeSA (env.rand d.reads) d.s.initiatorSPI d.s.responderSPI exchange flags msgID
      inner = (.ok raw, sa)) :
    encodeIn c env .cur exchange flags msgID inner d =
      (.ok raw, { d.spend .cur d.s.ikeSA sa with
        log := .sealed .cur d.s.curIKE exchange flags msgID inner raw :: d.log }) := by
  simp only [encodeIn, Session.ctx, h, Session.curIKE]

theorem jitteredDeadline_sent (base : Time) (lifetime : Duration) :
    (jitteredDeadline env base lifetime d).2.sent = d.sent := by
  unfold jitteredDeadline randFraction
  split
  · rfl
  · cases hf : (env.rand d.reads).full 2 <;> simp [bind, Proc.bind, randRead, hf, pure, Proc.lift]

/-- An accepted Child SA is installed and sent as the response, whatever the transport makes
of it. -/
theorem installAnswered_sends (hdp : d.s.dataPlane = true) (pfs : Option DH) (u : ChildSAUpdate)
    (child : ChildSA) (raw : Bytes) :
    ∃ r d', installAnswered env .cur msgID pfs u child raw d = (r, d') ∧ Safe r ∧
      d'.log = .answered .cur msgID raw :: .install .responder .cur msgID u :: d.log ∧
      d'.s.child = some child ∧ d'.sent = d.s.frame raw :: d.sent := by
  have hview : (installAnswered env .cur msgID pfs u child raw d).2.view {} = _ := installAnswered_view hdp {}
  have hends : Safe (installAnswered env .cur msgID pfs u child raw d).1 ∧
      (installAnswered env .cur msgID pfs u child raw d).2.sent = d.s.frame raw :: d.sent := by
    unfold installAnswered
    rw [run_setSession_bind, run_installChildSA_bind _ (by cases pfs <;> exact hdp),
      run_setSession_bind, run_session_bind]
    obtain ⟨t, d', hx, hs, -⟩ := jitteredDeadline_ok env _ _ _
    have hsent := congrArg (fun r => r.2.sent) hx
    rw [jitteredDeadline_sent] at hsent
    rw [Proc.bind_of_ok hx, run_setSession_bind]
    change Safe (if env.sendOK d'.sent.length then .ok () else fail "transport: send failed") ∧
      Session.frame _ raw :: d'.sent = _
    constructor
    · split
      · exact Safe.ok _
      · exact Safe.fail _
    · rw [← hsent]
      cases pfs <;> simp only [Session.record, Session.frame, hs]
  exact ⟨(installAnswered env .cur msgID pfs u child raw d).1, (installAnswered env .cur msgID pfs u child raw d).2,
    rfl, hends.1, congrArg Machine.log hview, congrArg Machine.child hview, hends.2⟩

theorem ke_mem_childRekeyAnswer {v6 : Bool} {number : UInt8} {suite : EspSuite} {newSPI nr : Bytes}
    {dh : Option DH} {req : ChildRekeyRequest} {ke : KEPayload} :
    Payload.ke ke ∈ childRekeyAnswer v6 number suite newSPI nr dh req ↔
      ∃ x, dh = some x ∧ ke = { group := x.group, data := x.pub } := by
  unfold childRekeyAnswer trafficSelectors
  split <;> cases dh <;> simp

/-- What a request that is accepted leaves: the response, and the Child SA that it says. -/
structure Responds (c : Crypto) (msgID : UInt32) (inner : Payloads) (dh : Option DH) (d d' : Drive)
    (resp : Payloads) (u : ChildSAUpdate) (raw : Bytes) : Prop where
  accepts : AcceptsChild c (d.view {}) d.s.ikeSA inner resp u
  ke : ∀ ke, Payload.ke ke ∈ resp → ∃ y, dh = some y ∧ ke = { group := y.group, data := y.pub }
  log : d'.log = .answered .cur msgID raw :: .install .responder .cur msgID u ::
    .sealed .cur d.s.curIKE exchangeCreateChildSA (answerFlags d.s.curIKE) msgID resp raw :: d.log
  child : d'.s.child = some u.answeredChild
  sent : d'.sent = d.s.frame raw :: d.sent

theorem acceptChildRekey_accepts {live : ChildSA} {req : ChildRekeyRequest} {prop : Proposal}
    {suite : EspSuite} {pfs : Option (DH × Bytes)} (hdp : d.s.dataPlane = true) (hchild : d.s.child = some live)
    (hreq : childRekeyRequestPayloads inner = .ok req)
    (hselect : selectProposal req.sa d.s.enabledESPSuites ((req.ke.map KEPayload.group).getD 0) =
      some (prop, suite))
    (hpfs : drawPFS c env d.reads req.ke = .ok pfs) (hagrees : Agrees c req.ke pfs)
    (hwf : d.s.ikeSA.WF) (hrand : env.Random) (hlegible : ∀ p ∈ inner, Legible p)
    (hsize : ∀ newSPI nr, newSPI.length = 4 → nr.length = nonceLen →
      (childRekeyAnswer d.s.cfg.requestIPv6 prop.number suite newSPI nr (pfs.map Prod.fst) req).size ≤ 65000) :
    ∃ r d' resp u raw, acceptChildRekey c env .cur msgID live req prop suite d = (r, d') ∧ Safe r ∧
      Responds c msgID inner (pfs.map Prod.fst) d d' resp u raw := by
  obtain ⟨hsuite, -, -, hspilen, -⟩ := selectProposal_eq_some hselect
  obtain ⟨newSPI, hnewSPI⟩ := RandRead.full_ok (hrand (d.reads + req.ke.toList.length)) 4
  obtain ⟨nr, hnr⟩ := RandRead.full_ok (hrand (d.reads + req.ke.toList.length + 1)) nonceLen
  have hlen := RandRead.full_length hnewSPI
  have hnrlen := RandRead.full_length hnr
  obtain ⟨serverNewSPI, hspi⟩ := uint32_ok (b := prop.spi) (by rw [hspilen, spiLen_espSuite])
  obtain ⟨newInSPI, hnew⟩ := uint32_ok (b := newSPI) (by rw [hlen])
  obtain ⟨keys, hkeys⟩ := d.s.ikeSA.deriveChildKeys_ok c ((pfs.map Prod.snd).getD []) req.ni nr
    (keyLen_espSuites (mem_of_mem_enabledSuites hsuite))
  have haccepts : AcceptsChild c (d.view {}) d.s.ikeSA inner
      (childRekeyAnswer d.s.cfg.requestIPv6 prop.number suite newSPI nr (pfs.map Prod.fst) req) _ :=
    .intro ⟨live, hchild, rfl⟩ hreq hselect hspi hagrees hnew hlen hnrlen hkeys
  have hsized := hsize newSPI nr hlen hnrlen
  obtain ⟨raw, hraw⟩ := encodeSKWith_ok (c := c) hwf (hrand (d.reads + req.ke.toList.length + 1 + 1))
    (haccepts.legible hlegible) hsized d.s.initiatorSPI d.s.responderSPI
    exchangeCreateChildSA (answerFlags d.s.curIKE) msgID
  have hflags (k : Nat) : responseFlags .cur { d with reads := k } =
      (.ok (answerFlags d.s.curIKE), { d with reads := k }) := rfl
  generalize hencode : encodeSKWith c d.s.ikeSA _ d.s.initiatorSPI d.s.responderSPI exchangeCreateChildSA
    (answerFlags d.s.curIKE) msgID _ = res at hraw
  obtain ⟨_, sa⟩ := res
  cases hraw
  have hsealed := encodeIn_apply (d := { d with reads := d.reads + req.ke.toList.length + 1 + 1 }) hencode
  rw [acceptChildRekey, Proc.bind_lift_of_ok hspi, Proc.bind_of_ok (childRekeyPFS_of_drawPFS hpfs),
    Proc.bind_of_ok (Proc.onError_of_ok (randBytes_of_full hnewSPI)), Proc.bind_lift_of_ok hnew,
    Proc.bind_of_ok (Proc.onError_of_ok (randBytes_of_full hnr)), run_session_bind, Proc.bind_of_ok (hflags _)]
  dsimp only
  rw [Proc.bind_of_ok (Proc.onError_of_ok hsealed)]
  dsimp only [Session.ctx]
  rw [Proc.bind_lift_of_ok hkeys]
  generalize hd₁ : ({ Drive.spend _ _ _ _ with log := _ } : Drive) = d₁
  have hdp₁ : d₁.s.dataPlane = true := by rw [← hd₁]; exact hdp
  obtain ⟨r, d', hrun, hsafe, hlog, hchild', hsent⟩ := installAnswered_sends
    hdp₁ (pfs.map Prod.fst) ⟨newInSPI, serverNewSPI, live.initiatorSPI, suite.id, keys.encrRI, keys.integRI,
      keys.encrIR, keys.integIR⟩ ⟨newInSPI, serverNewSPI, suite.id, keys⟩ raw
  refine ⟨r, d', _, _, raw, hrun, hsafe, haccepts, fun _ => ke_mem_childRekeyAnswer.mp, ?_, hchild', ?_⟩
  · rw [hlog, ← hd₁]
  · rw [hsent, ← hd₁]
    rfl

/-- The request for a Child SA of a peer that offers one of our suites. -/
theorem handleChildRekeyRequest_accepts {live : ChildSA} {req : ChildRekeyRequest} {prop : Proposal}
    {suite : EspSuite} {pfs : Option (DH × Bytes)} (hdp : d.s.dataPlane = true) (hchild : d.s.child = some live)
    (hreq : childRekeyRequestPayloads inner = .ok req)
    (hgroup : (req.ke.any fun ke => !supportedDHGroup ke.group) = false)
    (hselect : selectProposal req.sa d.s.enabledESPSuites ((req.ke.map KEPayload.group).getD 0) =
      some (prop, suite))
    (hpfs : drawPFS c env d.reads req.ke = .ok pfs) (hagrees : Agrees c req.ke pfs)
    (hwf : d.s.ikeSA.WF) (hrand : env.Random) (hlegible : ∀ p ∈ inner, Legible p)
    (hsize : ∀ newSPI nr, newSPI.length = 4 → nr.length = nonceLen →
      (childRekeyAnswer d.s.cfg.requestIPv6 prop.number suite newSPI nr (pfs.map Prod.fst) req).size ≤ 65000) :
    ∃ r d' resp u raw, handleChildRekeyRequest c env msgID inner .cur d = (r, d') ∧ Safe r ∧
      Responds c msgID inner (pfs.map Prod.fst) d d' resp u raw := by
  rw [handleChildRekeyRequest, run_session_bind, hchild]
  dsimp only
  rw [hreq]
  dsimp only
  rw [if_neg (by rw [hgroup]; decide), hselect]
  exact acceptChildRekey_accepts hdp hchild hreq hselect hpfs hagrees hwf hrand hlegible hsize

/-- The turn that takes in a CREATE_CHILD_SA request. -/
theorem driverStep_createChildSA {raw : Bytes} {hdr : Message} {d₁ : Drive}
    (hdecode : d.s.decodeIKE c env raw = .ok (hdr, inner, .cur)) (hexchange : hdr.exchange = exchangeCreateChildSA)
    (hreq : hdr.flags.isResponse = false) (hfresh : ¬ d.s.peer.covers hdr.messageID)
    (hcreate : handleCreateChildSA c env hdr.messageID inner .cur (taken env .cur hdr.messageID d) = (.ok (), d₁)) :
    driverStep c env (.datagram raw) d = (.ok false, { d₁ with log := .handled :: d₁.log }) := by
  have hprocess : (do
      handleCreateChildSA c env hdr.messageID inner .cur
      return false : Drv Bool) (taken env .cur hdr.messageID d) = (.ok false, d₁) := by
    rw [Proc.bind_of_ok hcreate]
    rfl
  have hnew : ¬ ((heard env d).s.dedup .cur).covers hdr.messageID := hfresh
  rw [driverStep, handleInbound_request hdecode hexchange hreq, takeUp,
    Proc.bind_of_ok (dedupPeerRequest_fresh hnew)]
  exact Proc.bind_of_ok hprocess

/-- What is attempted for its effects leaves them, whether it fails or not. -/
theorem attempt_of_safe {x : Drv Unit} {d₁ : Drive} {r : Go Unit} (hx : x d = (r, d₁)) (hsafe : Safe r) :
    (Proc.attempt x >>= fun _ => (pure () : Drv Unit)) d = (.ok (), d₁) := by
  obtain ⟨o, ho⟩ := Proc.attempt_bind_of_safe (f := fun _ => (pure () : Drv Unit)) hx hsafe
  rw [ho]
  rfl

/-- A request for a Child SA, when no rekey of ours is under way. -/
theorem handleCreateChildSA_accepts {d₁ : Drive} {r : Go Unit} (hike : isIKERekey inner = false)
    (hidle : (d.s.pending.any fun p => p.kind.isRekey) = false)
    (hrun : handleChildRekeyRequest c env msgID inner .cur d = (r, d₁)) (hsafe : Safe r) :
    handleCreateChildSA c env msgID inner .cur d = (.ok (), d₁) := by
  unfold handleCreateChildSA
  rw [run_session_bind, if_neg (by rw [hidle]; decide), if_neg (by rw [hike]; decide)]
  exact attempt_of_safe hrun hsafe

end

/-! ## The initiator -/

section

variable {c : Crypto} {env : Env} {d : Drive}

theorem collectPayloads_answer_ok (v6 : Bool) (number : UInt8) (suite : EspSuite) (newSPI nr : Bytes)
    (dh : Option DH) (req : ChildRekeyRequest) :
    ∃ acc, collectPayloads true {} (childRekeyAnswer v6 number suite newSPI nr dh req) = .ok acc := by
  unfold childRekeyAnswer
  split
  · exact ⟨_, collectPayloads_child ..⟩
  · exact ⟨_, collectPayloads_child ..⟩

/-- The answer to a request of ours can be used, if its key exchange can. -/
theorem AcceptsChild.usable {m m' : Machine} {sa : IKESA} {ctx : ChildRekeyCtx} {req resp : Payloads}
    {u : ChildSAUpdate} (haccept : AcceptsChild c m' sa req resp u)
    (hasks : Asks c m (.childRekey ctx) exchangeCreateChildSA req)
    (hsecret : ∀ x, ctx.dh = some x → ∀ ke, Payload.ke ke ∈ resp → (x.shared c ke.data).isOk = true) :
    usableAnswer c m.espSuites ctx resp = true := by
  cases hasks with
  | childRekey ctx newSPI hspi hlen hni hdh hold hflag =>
  cases haccept with
  | @intro rq prop suite pfs newSPI' nr newInSPI serverNewSPI keys oldInSPI _ hreq hselect hprop hpfs hnew hlen' hnr hkeys =>
      have hrq := Except.ok.inj ((childRekeyRequestPayloads_request hni).symm.trans hreq)
      rw [← hrq] at hselect hpfs
      obtain ⟨hgroups, -⟩ := groups_of_newDH hdh
      have hgroup : ((ctx.dh.map fun d => ({ group := d.group, data := d.pub } : KEPayload)).map
          KEPayload.group).getD 0 = (ctx.dh.map DH.group).getD 0 := by
        rw [Option.map_map]
        rfl
      rw [hgroups, hgroup] at hselect
      have hmem := mem_of_selectProposal distinctEncr_espSuites (fun _ hs => mem_of_mem_enabledSuites hs)
        (fun _ hs => mem_of_mem_enabledSuites hs) hselect
      obtain ⟨acc, hacc⟩ := collectPayloads_answer_ok m'.cfg.requestIPv6 prop.number suite newSPI' nr
        (pfs.map Prod.fst) rq
      obtain ⟨hsa, hnonce, hke⟩ := collectPayloads_answer hacc
      obtain ⟨group, hanswer⟩ := groups_eq_answerGroups hpfs.newDH
      have hsel : selectedSuite (buildProposalForSuite prop.number suite newSPI'
          ((pfs.map Prod.fst).toList.map DH.group)) m.espSuites = some suite := by
        rw [hanswer]
        exact (selectedSuite_iff_narrowed distinctEncr_espSuites fun _ hs => mem_of_mem_enabledSuites hs).mpr
          ⟨hmem, narrowed_build ..⟩
      have hnr0 : acc.nonce.length ≠ 0 := by rw [hnonce, hnr]; decide
      simp only [usableAnswer, hacc, hsa, Option.bind_some, List.head?_cons, hsel, Option.isSome_some,
        Bool.true_and, Bool.and_eq_true, beq_iff_eq, bne_iff_ne]
      refine ⟨⟨hlen', hnr0⟩, ?_⟩
      cases hx : ctx.dh with
      | none =>
          rw [hx] at hpfs
          cases hpfs
          rw [hke]
          rfl
      | some x =>
          rw [hx] at hpfs
          cases hpfs with
          | @pfs _ _ y secret hy _ =>
              have hshared := hsecret x hx { group := y.group, data := y.pub }
                (ke_mem_childRekeyAnswer.mpr ⟨y, rfl, rfl⟩)
              have hyx : y.group = x.group := (group_of_newDH hy).1
              rw [hke]
              simpa [hyx] using hshared

theorem sendChildDelete_goesOut (hwf : d.s.ikeSA.WF) (hrand : env.Random) (inSPI : UInt32) :
    ∃ r d', sendChildDelete c env inSPI d = (r, d') ∧ Safe r ∧
      GoesOut env (· = .delete) d.s.retransmitBase false d.s d'.s := by
  have hlegible : ∀ p ∈ childDelete inSPI, Legible p := by
    intro p hp
    cases List.mem_singleton.mp hp
    exact legible_deleteChild inSPI
  obtain ⟨raw, d₁, n, n', henc, hs⟩ := encodeIn_ok (c := c) hwf hrand hlegible
    (by simp [childDelete, Payloads.size, Payload.bodySize, genericHeaderLen]) exchangeInformational (ikeRoleBit d.s.ikeSA.role) d.s.messageID
  rw [sendChildDelete, run_session_bind]
  exact request_goesOut henc hs

/-- What follows the install leaves no rekey of ours under way. -/
theorem afterInstall_settles (hwf : d.s.ikeSA.WF) (hrand : env.Random) (hnone : d.s.pending = none)
    (ctx : ChildRekeyCtx) :
    ∃ r d', afterInstall c env ctx d = (r, d') ∧ Safe r ∧ SameChild d d' ∧
      (d'.s.pending.any fun p => p.kind.isRekey) = false := by
  have hsame : SameChild d (afterInstall c env ctx d).2 := (afterInstall_outcome ctx).2
  have hrun : ∃ r d', afterInstall c env ctx d = (r, d') ∧ Safe r ∧
      (d'.s.pending.any fun p => p.kind.isRekey) = false := by
    unfold afterInstall
    by_cases hre : ctx.reestablish = true
    · rw [if_pos hre]
      exact ⟨.ok (), d, rfl, Safe.ok _, by rw [hnone]; rfl⟩
    rw [if_neg hre]
    by_cases hspi : ctx.oldInSPI = ctx.newInSPI
    · rw [if_pos hspi]
      exact ⟨.ok (), d, rfl, Safe.ok _, by rw [hnone]; rfl⟩
    rw [if_neg hspi]
    obtain ⟨r, d', hrun, hsafe, n, n', p, hs, hkind, -⟩ := sendChildDelete_goesOut (c := c) hwf hrand ctx.oldInSPI
    refine ⟨r, d', hrun, hsafe, ?_⟩
    rw [hs]
    simp [Session.asking, hkind, ExchangeKind.isRekey]
  obtain ⟨r, d', hrun, hsafe, hpending⟩ := hrun
  rw [hrun] at hsame
  exact ⟨r, d', hrun, hsafe, hsame, hpending⟩

/-- What follows an attempt is reached, whether it fails or not. -/
theorem attempt_bind_exists {x : Drv Unit} {f : Option String → Drv Unit} {d₁ : Drive} {r : Go Unit}
    {P : Drive → Prop} (hx : x d = (r, d₁)) (hsafe : Safe r)
    (hf : ∀ o, ∃ d', f o d₁ = (.ok (), d') ∧ P d') :
    ∃ d', (Proc.attempt x >>= f) d = (.ok (), d') ∧ P d' := by
  obtain ⟨o, ho⟩ := Proc.attempt_bind_of_safe (f := f) hx hsafe
  rw [ho]
  exact hf o

/-- What is installed for a response to a request of ours. -/
def askedUpdate (ctx : ChildRekeyCtx) (respSPI : UInt32) (suite : EspSuite) (keys : ChildKeys) :
    ChildSAUpdate where
  newInSPI := ctx.newInSPI
  newOutSPI := respSPI
  oldInSPI := ctx.oldInSPI
  suite := suite.id
  outEncr := keys.encrIR
  outInteg := keys.integIR
  inEncr := keys.encrRI
  inInteg := keys.integRI

/-- The Child SA of an update we asked for. -/
def ChildSAUpdate.askedChild (u : ChildSAUpdate) : ChildSA where
  initiatorSPI := u.newInSPI
  responderSPI := u.newOutSPI
  suite := u.suite
  keys := { encrIR := u.outEncr, integIR := u.outInteg, encrRI := u.inEncr, integRI := u.inInteg }

/-- What the response to a rekey of ours leaves. -/
structure RekeyDone (u : ChildSAUpdate) (d d' : Drive) : Prop where
  told : updates d'.log = u :: updates d.log
  child : d'.s.child = some u.askedChild
  settled : (d'.s.pending.any fun p => p.kind.isRekey) = false

/-- The turn that takes in the response to a rekey of ours. -/
theorem driverStep_completes {p : PendingExchange} {ctx : ChildRekeyCtx} {raw : Bytes} {hdr : Message}
    {inner : Payloads} {respSPI : UInt32} {suite : EspSuite} {keys : ChildKeys} (hdp : d.s.dataPlane = true)
    (hwf : d.s.ikeSA.WF) (hrand : env.Random) (hp : d.s.pending = some p) (hk : p.kind = .childRekey ctx)
    (hdecode : d.s.decodeIKE c env raw = .ok (hdr, inner, .cur)) (hexchange : hdr.exchange = exchangeCreateChildSA)
    (hresp : hdr.flags.isResponse = true) (hid : hdr.messageID = p.msgID)
    (hresult : childRekeyResult c d.s.enabledESPSuites d.s.ikeSA ctx inner = .ok (respSPI, suite, keys)) :
    ∃ d', driverStep c env (.datagram raw) d = (.ok false, d') ∧
      RekeyDone (askedUpdate ctx respSPI suite keys) d d' := by
  have hcompletion : completion c env inner p ctx (heard env d) =
      afterInstall c env ctx (installedFor env p ctx (heard env d) respSPI suite keys) :=
    completion_of_usable hdp hresult
  obtain ⟨r, d₁, hrun, hsafe, hsame, hpending⟩ := afterInstall_settles (c := c)
    (d := installedFor env p ctx (heard env d) respSPI suite keys) hwf hrand rfl ctx
  rw [hrun] at hcompletion
  have hdone : RekeyDone (askedUpdate ctx respSPI suite keys) d d₁ := ⟨hsame.1, hsame.2.1, hpending⟩
  have hmatching : ∃ d', completeMatchingRekey c env hdr.messageID inner .cur (heard env d) = (.ok (), d') ∧
      d'.log = d₁.log ∧ d'.s.child = d₁.s.child ∧ d'.s.pending = d₁.s.pending := by
    rw [hid, completeMatchingRekey_childRekey (d := heard env d) hp hk]
    refine attempt_bind_exists hcompletion hsafe fun o => ?_
    cases o with
    | some text => exact ⟨d₁, rfl, rfl, rfl, rfl⟩
    | none =>
        obtain ⟨t, d₂, hx, hs, hrearm⟩ := rearm_outcome d₁
        obtain ⟨t', d₂', hx', -, hlog⟩ := jitteredDeadline_ok env d₁.s.childInstalledAt d₁.s.cfg.rekeyLifetime d₁
        cases hx.symm.trans hx'
        exact ⟨_, hrearm, hlog, by rw [hs], by rw [hs]⟩
  obtain ⟨d', hmatch, hlog, hchild, hpend⟩ := hmatching
  refine ⟨d', ?_, hlog ▸ hdone.told, hchild ▸ hdone.child, hpend ▸ hdone.settled⟩
  rw [driverStep, handleInbound_decoded hdecode, dispatch, if_neg (by rw [hexchange]; decide), if_pos hexchange,
    if_pos hresp, Proc.bind_of_ok hmatch]
  rfl

end

/-! ## What was asked for -/

/-- The outstanding exchange of ours was asked for under the settings we still have. -/
def Machine.Bids (c : Crypto) (m : Machine) : Prop :=
  ∀ msgID kind, m.pending = some (msgID, kind) → ∃ (y : Speech) (m₀ : Machine),
    (lineage m.log, y) ∈ askings m.log ∧ y.msgID = msgID ∧ Asks c m₀ kind y.exchange y.inner ∧ m₀.cfg = m.cfg

section

variable {c : Crypto} {r : Rules} {m m' : Machine}

theorem Machine.Bids.keep (h : m.Bids c) (hlog : m.log <:+ m'.log) (hlineage : lineage m'.log = lineage m.log)
    (hcfg : m'.cfg = m.cfg) (hpending : m'.pending = m.pending) : m'.Bids c := by
  intro msgID kind hp
  obtain ⟨y, m₀, hy, hid, hasks, hm₀⟩ := h msgID kind (hpending ▸ hp)
  exact ⟨y, m₀, hlineage ▸ askings_suffix hlog hy, hid, hasks, hm₀.trans hcfg.symm⟩

theorem Machine.bids_of_none (h : m.pending = none) : m.Bids c := by
  intro msgID kind hp
  rw [h] at hp
  cases hp

theorem Machine.Bids.move (h : m.Bids c) (hmove : Move c r m m') : m'.Bids c := by
  have hgrows := hmove.log_suffix
  cases hmove with
  | @request kind exchange inner ctx raw hidle hopened hctx hasks =>
      intro msgID kind' hp
      cases hp
      refine ⟨{ exchange, flags := ikeRoleBit ctx.sa.role, msgID := m.messageID, inner }, m, ?_, rfl, hasks, rfl⟩
      refine mem_askings.mpr ⟨?_, isResponse_ikeRoleBit _⟩
      cases kind <;> exact List.mem_cons_self
  | drop | abandon | refused | complete | completeIKE | acceptIKE => exact Machine.bids_of_none rfl
  | _ => exact h.keep hgrows rfl rfl rfl

end

/-! ## The round trip -/

section

variable {c : Crypto} {ia ib : UInt32} {a b : Drive} {now : Env}

theorem isIKERekey_childRekeyRequest {suites : List EspSuite} (hsuites : ∀ s ∈ suites, s ∈ espSuites) (v6 : Bool)
    (oldInSPI : UInt32) (reestablish : Bool) (newSPI ni : Bytes) (dh : Option DH) :
    isIKERekey (childRekeyRequest suites v6 oldInSPI reestablish newSPI ni dh) = false := by
  rw [isIKERekey, List.any_eq_false]
  intro p hp
  cases p with
  | sa sa =>
      obtain rfl : sa = { proposals := buildProposals newSPI suites (dh.toList.map DH.group) } := by
        cases reestablish <;> cases dh <;> simpa [childRekeyRequest, trafficSelectors] using hp
      dsimp only
      split
      · rename_i q rest hq
        obtain ⟨number, s, hs, rfl⟩ := mem_buildProposalsFrom (hq ▸ List.mem_cons_self)
        simp only [buildProposalForSuite, protocol_espSuites (hsuites s hs)]
        decide
      · exact Bool.false_ne_true
  | _ => exact Bool.false_ne_true

/-- The answer to a request of ours fits into a message. -/
theorem size_childRekeyAnswer_le {v6 v6' : Bool} {number : UInt8} {suite : EspSuite} {newSPI nr : Bytes}
    {dh : Option DH} {req : ChildRekeyRequest} (hspi : newSPI.length = 4) (hnr : nr.length = nonceLen)
    (hdh : ∀ p, dh = some p → p.pub.length ≤ 256) (htsi : req.tsi = fullSelectors v6')
    (htsr : req.tsr = fullSelectors v6') :
    (childRekeyAnswer v6 number suite newSPI nr dh req).size ≤ 65000 := by
  have hpub : ((dh.map fun d => d.pub.length).map (16 + ·)).getD 0 ≤ 272 := by
    cases dh with
    | none => exact Nat.zero_le _
    | some p => exact Nat.add_le_add_left (hdh p rfl) 16
  have hts : selectorsSize (fullSelectors v6') ≤ 60 := by cases v6' <;> decide
  have hsome : 0 < (fullSelectors v6').length ∧ 0 < (fullSelectors v6').length :=
    ⟨Nat.succ_pos _, Nat.succ_pos _⟩
  rw [size_childRekeyAnswer hspi hnr, answerSize, htsi, htsr, if_pos hsome, nonceLen]
  split <;> split <;> omega

/-- What a responder reads in a request for a Child SA. -/
structure OffersChild (inner : Payloads) (enabled : List EspSuite) (dh : Option DH) (req : ChildRekeyRequest) :
    Prop where
  read : childRekeyRequestPayloads inner = .ok req
  child : isIKERekey inner = false
  ke : req.ke = dh.map fun d => { group := d.group, data := d.pub }
  group : (req.ke.any fun ke => !supportedDHGroup ke.group) = false
  select : ∃ prop suite, selectProposal req.sa enabled ((req.ke.map KEPayload.group).getD 0) = some (prop, suite)
  selectors : ∃ v6, req.tsi = fullSelectors v6 ∧ req.tsr = fullSelectors v6

theorem Asks.offersChild {m : Machine} {ctx : ChildRekeyCtx} {exchange : ExchangeType} {inner : Payloads}
    {enabled : List EspSuite} (h : Asks c m (.childRekey ctx) exchange inner)
    (hcommon : ∃ suite ∈ m.espSuites, suite ∈ enabled) : ∃ req, OffersChild inner enabled ctx.dh req := by
  cases h with
  | childRekey ctx newSPI hspi hlen hni hdh hold hflag =>
      obtain ⟨suite, hs, hs'⟩ := hcommon
      obtain ⟨hgroups, hsupported⟩ := groups_of_newDH hdh
      refine ⟨_, childRekeyRequestPayloads_request hni,
        isIKERekey_childRekeyRequest (fun _ hs => mem_of_mem_enabledSuites hs) .., rfl, ?_, ?_, _, rfl, rfl⟩
      · rw [Option.any_map]
        exact hsupported
      · dsimp only
        rw [hgroups, Option.map_map]
        exact selectProposal_offered hs hs' (by rw [hlen, spiLen_espSuite])

/-- An endpoint that can accept a request of the other for a Child SA: it has one, no rekey
of its own is under way, it has not answered the request yet, there is a suite in common, and
the key exchange succeeds. -/
structure Receptive (c : Crypto) (now : Env) (b : Drive) (msgID : UInt32) (dh : Option DH)
    (offered : List EspSuite) : Prop where
  child : b.s.child ≠ none
  idle : (b.s.pending.any fun p => p.kind.isRekey) = false
  fresh : ¬ b.s.peer.covers msgID
  suite : ∃ suite ∈ offered, suite ∈ b.s.enabledESPSuites
  keys : KeysMeet c (now.rand b.reads) dh
  random : now.Random

theorem Allied.mirrors (h : Allied c ia ib a b) (hlevel : lineage b.log = (lineage a.log).mirror) :
    (a.view {}).ike.Mirrors (b.view {}).ike := by
  have hcur := h.paired.right.cur
  rw [show lineage (b.view {}).log = (lineage a.log).mirror from hlevel] at hcur
  exact h.paired.shared _ _ _ h.paired.left.cur hcur

/-- The turn in which such an endpoint takes in the request. -/
theorem Allied.responds (h : Allied c ia ib a b) (hlevel : lineage b.log = (lineage a.log).mirror) {x : IkeCtx}
    {y : Speech} {raw : Bytes} (hsealed : (lineage a.log, x, y, raw) ∈ sealings a.log) {m : Machine}
    {ctx : ChildRekeyCtx} (hasks : Asks c m (.childRekey ctx) y.exchange y.inner)
    (hreq : y.flags.isResponse = false) (hb : Receptive c now b y.msgID ctx.dh m.espSuites) :
    ∃ b₁ dh resp u answer,
      driverStep c now (.datagram raw) b = (.ok false, { b₁ with log := .handled :: b₁.log }) ∧
      Responds c y.msgID y.inner dh (taken now .cur y.msgID b) b₁ resp u answer ∧
      ∀ z, ctx.dh = some z → ∀ ke, Payload.ke ke ∈ resp → (z.shared c ke.data).isOk = true := by
  obtain ⟨hdr, inner, hdecode, hexchange, hflags, hid, rfl⟩ := h.decodeIKE hsealed hlevel now
  have hmirror := h.mirrors hlevel
  have hwf : b.s.ikeSA.WF := (hmirror.sa.withSeq a.s.ikeSA.skSeq b.s.ikeSA.skSeq).right
  obtain ⟨live, hlive⟩ := Option.ne_none_iff_exists'.mp hb.child
  obtain ⟨req, hoffers⟩ := hasks.offersChild hb.suite
  obtain ⟨prop, suite, hselect⟩ := hoffers.select
  obtain ⟨v6, htsi, htsr⟩ := hoffers.selectors
  obtain ⟨pfs, hpfs, hagrees, hmeet⟩ := hb.keys.draw
  rw [← hoffers.ke] at hpfs hagrees
  obtain ⟨r, b₁, resp, u, answer, hrun, hsafe, hresponds⟩ := handleChildRekeyRequest_accepts
    (d := taken now .cur y.msgID b) h.rightPlane hlive hoffers.read hoffers.group hselect hpfs hagrees hwf hb.random
    hasks.legible fun newSPI nr hspi hnr => size_childRekeyAnswer_le hspi hnr
      (fun p hp => by
        obtain ⟨group, rand, hp⟩ := hagrees.newDH p hp
        exact length_pub_le hp) htsi htsr
  refine ⟨b₁, _, resp, u, answer, ?_, hresponds, ?_⟩
  · have hcreate := handleCreateChildSA_accepts (d := taken now .cur y.msgID b) hoffers.child hb.idle hrun hsafe
    rw [← hid] at hcreate
    exact driverStep_createChildSA hdecode (hexchange.trans (hasks.exchange_eq rfl)) (hflags ▸ hreq)
      (hid ▸ hb.fresh) hcreate
  · intro z hz ke hke
    obtain ⟨z', secret, secret', rfl, hsecret⟩ := hmeet z hz
    obtain ⟨_, ⟨⟩, rfl⟩ := hresponds.ke ke hke
    rw [hsecret]
    rfl

theorem speech_of_sealing {log : List Event} {g : Lineage} {x : IkeCtx} {y : Speech} {raw : Bytes}
    (h : (g, x, y, raw) ∈ sealings log) : (g, y) ∈ speeches log := by
  induction log with
  | nil => cases h
  | cons e log ih =>
      cases e with
      | «sealed» =>
          rcases List.mem_cons.mp h with heq | h
          · cases heq
            exact List.mem_cons_self
          · exact List.mem_cons_of_mem _ (ih h)
      | _ => exact ih h

/-- What an endpoint encodes under the current IKE SA of the other is its own message. -/
theorem Allied.genuine (h : Allied c ia ib a b) {g : Lineage} {x : IkeCtx} {y : Speech} {raw : Bytes}
    (hsealed : (g, x, y, raw) ∈ sealings a.log) (hlineage : lineage b.log = g.mirror) (now : Env) :
    (Input.datagram raw).Genuine c now b a.log := by
  obtain ⟨hdr, inner, hdecode, hexchange, hflags, hid, hinner⟩ := h.decodeIKE hsealed hlineage now
  intro hdr' inner' slot hdecode'
  cases hdecode.symm.trans hdecode'
  have hsaid := speech_of_sealing hsealed
  rw [← Lineage.mirror_mirror g, ← hlineage] at hsaid
  rw [hexchange, hflags, hid, hinner]
  exact hsaid

/-- The turn in which the endpoint that asked takes in the response. -/
theorem Allied.completes (h : Allied c ia ib a b) (hlevel : lineage a.log = (lineage b.log).mirror)
    {p : PendingExchange} {ctx : ChildRekeyCtx} (hp : a.s.pending = some p) (hk : p.kind = .childRekey ctx)
    {x : IkeCtx} {y : Speech} {raw : Bytes} (hsealed : (lineage b.log, x, y, raw) ∈ sealings b.log)
    (hexchange : y.exchange = exchangeCreateChildSA) (hresp : y.flags.isResponse = true) (hid : y.msgID = p.msgID)
    {m n : Machine} {sa : IKESA} {req : Payloads} {v : ChildSAUpdate} (hsuites : m.espSuites = a.s.enabledESPSuites)
    (hasks : Asks c m (.childRekey ctx) exchangeCreateChildSA req) (haccepts : AcceptsChild c n sa req y.inner v)
    (hskd : a.s.ikeSA.skd = sa.skd)
    (hsecret : ∀ z, ctx.dh = some z → ∀ ke, Payload.ke ke ∈ y.inner → (z.shared c ke.data).isOk = true)
    (hrand : now.Random) :
    ∃ u a', driverStep c now (.datagram raw) a = (.ok false, a') ∧ RekeyDone u a a' ∧ u.Complements v := by
  obtain ⟨hdr, inner, hdecode, hexchange', hflags, hid', rfl⟩ := h.symm.decodeIKE hsealed hlevel now
  have hwf : a.s.ikeSA.WF :=
    ((h.symm.mirrors hlevel).sa.withSeq b.s.ikeSA.skSeq a.s.ikeSA.skSeq).right
  have husable := haccepts.usable hasks hsecret
  rw [hsuites] at husable
  obtain ⟨⟨respSPI, suite, keys⟩, hresult⟩ := usableAnswer_iff.mp husable
  obtain ⟨a', hturn, hdone⟩ := driverStep_completes h.leftPlane hwf hrand hp hk hdecode (hexchange'.trans hexchange)
    (hflags ▸ hresp) (hid'.trans hid) hresult
  exact ⟨_, a', hturn, hdone, haccepts.complements hskd hasks (fun _ => mem_of_mem_enabledSuites) hresult⟩

theorem JointRun.bids {a₀ b₀ : Drive} {fa fb : Bool} (h : JointRun c a₀ b₀ a fa b fb)
    (ha : a₀.s.dataPlane = true) (hb : b₀.s.dataPlane = true) (h₀ : (a₀.view {}).Bids c) : (a.view {}).Bids c := by
  induction h with
  | refl => exact h₀
  | left env input h hgenuine hstep ih =>
      exact (driverStep_invariant (fun _ _ => Machine.Bids.move) ih (h.planes ha hb).1 admitted_anyInput hstep).1
  | right env input h hgenuine hstep ih => exact ih

variable {s t : Session} {env env' later : Env}

/-- What was encoded under the Message ID of the outstanding exchange is what was asked. -/
theorem JointRun.asked (hpeers : Peers s t) {fa fb : Bool}
    (h : JointRun c (driverStart env { s }).2 (driverStart env' { s := t }).2 a fa b fb)
    (hfew : FewRequests a.log) (hfew' : FewRequests b.log) {p : PendingExchange} (hp : a.s.pending = some p)
    {x : IkeCtx} {y : Speech} {raw : Bytes} (hsealed : (lineage a.log, x, y, raw) ∈ sealings a.log)
    (hreq : y.flags.isResponse = false) (hid : y.msgID = p.msgID) :
    ∃ m : Machine, Asks c m p.kind y.exchange y.inner ∧ m.cfg = a.s.cfg := by
  have hstart := hpeers.allied (c := c) env env'
  have hallied := h.allied hstart hfew hfew'
  have hbids := h.bids hstart.leftPlane hstart.rightPlane
    (Machine.bids_of_none (orderly_driverStart env hpeers.left).1.pending)
  obtain ⟨y', m, hy', hid', hasks, hcfg⟩ := hbids p.msgID p.kind
    (congrArg (Option.map fun p : PendingExchange => (p.msgID, p.kind)) hp)
  obtain rfl : y = y' := askings_inj hallied.left.noted hallied.left.counts.ids hfew
    (mem_askings.mpr ⟨speech_of_sealing hsealed, hreq⟩) hy' (hid.trans hid'.symm)
  exact ⟨m, hasks, hcfg⟩

/-- If the request of an endpoint for a Child SA reaches the other while it is receptive, and
the response reaches the endpoint that asked while it still waits, both have installed the
two halves of one new Child SA, and the rekey is over.  What went before is any run of the
two. -/
theorem child_rekey_completes (hpeers : Peers s t)
    (h : JointRun c (driverStart env { s }).2 (driverStart env' { s := t }).2 a false b false)
    (hfew : FewRequests a.log) (hfew' : FewRequests b.log) (hlevel : lineage b.log = (lineage a.log).mirror)
    (p : PendingExchange) (ctx : ChildRekeyCtx) (hp : a.s.pending = some p) (hk : p.kind = .childRekey ctx)
    (x : IkeCtx) (y : Speech) (raw : Bytes) (hsealed : (lineage a.log, x, y, raw) ∈ sealings a.log)
    (hreq : y.flags.isResponse = false) (hid : y.msgID = p.msgID)
    (hb : Receptive c now b p.msgID ctx.dh a.s.enabledESPSuites) (hrand : later.Random) :
    ∃ b' answer u v, driverStep c now (.datagram raw) b = (.ok false, b') ∧
      b'.sent = b.s.frame answer :: b.sent ∧ updates b'.log = v :: updates b.log ∧
      b'.s.child = some v.answeredChild ∧ u.Complements v ∧
      ∃ a', driverStep c later (.datagram answer) a = (.ok false, a') ∧ RekeyDone u a a' ∧
        JointRun c (driverStart env { s }).2 (driverStart env' { s := t }).2 a' false b' false := by
  have hallied := h.allied (hpeers.allied env env') hfew hfew'
  obtain ⟨m, hasks, hcfg⟩ := h.asked hpeers hfew hfew' hp hsealed hreq hid
  rw [hk] at hasks
  have hsuites : m.espSuites = a.s.enabledESPSuites :=
    congrArg (fun cfg : Config => enabledSuites cfg.espSuites espSuites) hcfg
  rw [← hsuites, ← hid] at hb
  obtain ⟨b₁, dh, resp, v, answer, hturn, hresponds, hsecret⟩ := hallied.responds hlevel hsealed hasks hreq hb
  have hgenuine := hallied.genuine hsealed hlevel now
  have hrun := h.right now (.datagram raw) hgenuine hturn
  generalize hb' : ({ b₁ with log := .handled :: b₁.log } : Drive) = b' at hturn hrun
  have hlog : b'.log = .handled :: .answered .cur y.msgID answer :: .install .responder .cur y.msgID v ::
      .sealed .cur b.s.curIKE exchangeCreateChildSA (answerFlags b.s.curIKE) y.msgID resp answer ::
      .handling .cur y.msgID :: b.log := by
    rw [← hb']
    exact congrArg (Event.handled :: ·) hresponds.log
  have hfew'' : FewRequests b'.log := by rw [hlog]; exact hfew'
  have hlevel' : lineage a.log = (lineage b'.log).mirror := by
    rw [hlog, ← Lineage.mirror_mirror (lineage a.log), ← hlevel]
    rfl
  have hallied' := hallied.symm.turn hgenuine hturn hfew''
  have hanswer : (lineage b'.log, b.s.curIKE, ⟨exchangeCreateChildSA, answerFlags b.s.curIKE, y.msgID, resp⟩, answer) ∈
      sealings b'.log := by
    rw [hlog]
    exact List.mem_cons_self
  have hexchange := hasks.exchange_eq rfl
  obtain ⟨u, a', hturn', hdone, hcomplements⟩ := hallied'.symm.completes hlevel' hp hk hanswer rfl
    (isResponse_answerFlags _) hid hsuites (hexchange ▸ hasks) hresponds.accepts
    (hallied.mirrors hlevel).sa.skd hsecret hrand
  refine ⟨b', answer, u, v, hturn, ?_, ?_, ?_, hcomplements, a', hturn', hdone, ?_⟩
  · rw [← hb']
    exact hresponds.sent
  · rw [hlog]
    rfl
  · rw [← hb']
    exact hresponds.child
  · exact hrun.left later (.datagram answer) (hallied'.genuine hanswer hlevel' later) hturn'

end

/-- An end of `sampleSA` that replaces its Child SA with a key exchange. -/
def samplePfsEnd (role : Role) : Session :=
  { sampleEnd role (sampleDue true) with childPFS := true, childPFSGroup := dhGroup31 }

def samplePfsStart (role : Role) : Drive := (driverStart (sampleEnv 1) { s := samplePfsEnd role }).2

/-- The initiator has asked for a new Child SA. -/
def samplePfsAsking : Drive := ticking 1000 (samplePfsStart .initiator)

def samplePfsAsked : ChildRekeyCtx where
  newInSPI := 0x02020202
  oldInSPI := 17
  ni := List.replicate 32 3
  reestablish := false
  dh := some { priv := .x25519 (List.replicate 32 4), pub := List.replicate 32 4 }

theorem peers_samplePfsEnd : Peers (samplePfsEnd .initiator) (samplePfsEnd .responder) := by
  refine ⟨by constructor <;> rfl, by constructor <;> rfl, ?_, rfl, rfl⟩
  simp only [samplePfsEnd, sampleEnd, sampleSession, derivedTogether_sampleSA.mirror]

theorem receptive_samplePfs : Receptive Crypto.sample (sampleEnv 1001) (samplePfsStart .responder) 2
    samplePfsAsked.dh samplePfsAsking.s.enabledESPSuites where
  child := by decide +kernel
  idle := by decide +kernel
  fresh := not_and_of_not_left _ (by decide +kernel)
  suite := by decide +kernel
  keys := by
    rintro x ⟨⟩
    exact ⟨_, _, _, rfl, rfl, rfl⟩
  random _ := rfl

/-- The request of the sample endpoint, and the response to it. -/
theorem child_rekey_completes_sample : ∃ raw answer b' a' u,
    driverStep Crypto.sample (sampleEnv 1001) (.datagram raw) (samplePfsStart .responder) = (.ok false, b') ∧
    driverStep Crypto.sample (sampleEnv 1002) (.datagram answer) samplePfsAsking = (.ok false, a') ∧
    RekeyDone u samplePfsAsking a' := by
  have hok : (driverStep Crypto.sample (sampleEnv 1000) .tick (samplePfsStart .initiator)).1 = .ok false := by
    decide +kernel
  have hrun : JointRun Crypto.sample (samplePfsStart .initiator) (samplePfsStart .responder)
      samplePfsAsking false (samplePfsStart .responder) false := JointRun.refl.ticking hok
  obtain ⟨p, hp, hasked⟩ : ∃ p, samplePfsAsking.s.pending = some p ∧
      (p.msgID, p.kind) = (2, .childRekey samplePfsAsked) := Option.map_eq_some_iff.mp (by decide +kernel)
  obtain ⟨hid, hk⟩ := Prod.mk.inj hasked
  obtain ⟨⟨g, x, y, raw⟩, hsealed, hg, hreq, hy⟩ : ∃ q ∈ sealings samplePfsAsking.log,
      q.1 = lineage samplePfsAsking.log ∧ q.2.2.1.flags.isResponse = false ∧ q.2.2.1.msgID = 2 := by
    decide +kernel
  obtain ⟨b', answer, u, v, hturn, -, -, -, -, a', hturn', hdone, -⟩ :=
    child_rekey_completes peers_samplePfsEnd hrun (fewRequests_of_length (by decide +kernel))
      (fewRequests_of_length (by decide +kernel)) (by decide +kernel) p samplePfsAsked hp hk x y raw
      (hg ▸ hsealed) hreq (hy.trans hid.symm) (hid ▸ receptive_samplePfs)
      (show (sampleEnv 1002).Random from fun _ => rfl)
  exact ⟨raw, answer, b', a', u, hturn, hturn', hdone⟩

end GoIpsec.Session
