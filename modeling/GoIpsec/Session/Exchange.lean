import GoIpsec.Session.Machine
import GoIpsec.Session.Negotiation

/-!
# The two ends of an exchange that rekeys

What the initiator asks, the responder takes apart, and what the responder answers, the
initiator takes apart.  Here both ends of one exchange are put side by side: a request
made by `Asks`, an answer to it made by `AcceptsChild` or `AcceptsIKE`, and the result
the initiator reads from the answer.  If the initiator gets a result at all, the two ends
have the same: one Child SA in opposite directions, or the two ends of one IKE SA.

Nothing is said of how the messages get from one end to the other.
-/

set_option linter.dupNamespace false

namespace GoIpsec.Session

open Golang Ikemsg Ikesa

/-- The two halves of one Child SA. -/
structure ChildSAUpdate.Complements (u v : ChildSAUpdate) : Prop where
  suite : u.suite = v.suite
  out : u.newOutSPI = v.newInSPI
  inb : u.newInSPI = v.newOutSPI
  outEncr : u.outEncr = v.inEncr
  outInteg : u.outInteg = v.inInteg
  inEncr : u.inEncr = v.outEncr
  inInteg : u.inInteg = v.outInteg

/-- The two ends of one IKE SA, with its SPIs. -/
structure IkeCtx.Mirrors (x y : IkeCtx) : Prop where
  sa : Mirror x.sa y.sa
  spii : x.spii = y.spii
  spir : x.spir = y.spir

section

variable {c : Crypto}

/-! ## Key exchange -/

theorem group_of_newDH {group : UInt16} {rand : RandRead} {dh : DH} (h : newDH c group rand = .ok dh) :
    dh.group = group ∧ group ≠ 0 := by
  unfold newDH at h
  split at h
  · rename_i h14
    simp only [bind_eq_ok, pure_eq_ok, Except.ok.injEq] at h
    obtain ⟨_, -, rfl⟩ := h
    exact ⟨h14.symm, h14 ▸ by decide⟩
  split at h
  · rename_i h31
    simp only [bind_eq_ok, pure_eq_ok, Except.ok.injEq] at h
    obtain ⟨_, -, rfl⟩ := h
    exact ⟨h31.symm, h31 ▸ by decide⟩
  · cases h

/-- The groups that a proposal has for a key pair are those of an answer to it. -/
theorem groups_eq_answerGroups {dh : Option DH}
    (h : ∀ d, dh = some d → ∃ group rand, newDH c group rand = .ok d) :
    ∃ group, dh.toList.map DH.group = answerGroups group := by
  cases dh with
  | none => exact ⟨0, rfl⟩
  | some d =>
      obtain ⟨group, rand, hd⟩ := h d rfl
      obtain ⟨hgroup, hne⟩ := group_of_newDH hd
      refine ⟨group, ?_⟩
      rw [answerGroups, if_neg hne]
      exact congrArg (fun g => [g]) hgroup

/-- Each end computes the secret from the public value of the other. -/
theorem shared_eq_of_newDH {dhI dhR : DH} {rand : RandRead} {sharedI sharedR : Bytes}
    (hI : ∃ group rand, newDH c group rand = .ok dhI) (hR : newDH c dhI.group rand = .ok dhR)
    (hsharedI : dhI.shared c dhR.pub = .ok sharedI) (hsharedR : dhR.shared c dhI.pub = .ok sharedR) :
    sharedI = sharedR := by
  obtain ⟨group, randI, hI⟩ := hI
  rw [(group_of_newDH hI).1] at hR
  exact DH.shared_comm hI hR hsharedI hsharedR

/-! ## The payloads of an exchange -/

/-- The payloads that both messages of a Child SA exchange have. -/
theorem collectPayloads_child (check : Bool) (props : List Proposal) (nonce : Bytes) (dh : Option DH)
    (tsi tsr : List TrafficSelector) :
    collectPayloads check {} ([.sa { proposals := props }, .nonce { data := nonce }] ++
      (dh.toList.map (fun d => .ke { group := d.group, data := d.pub }) ++
        [.tsi { selectors := tsi }, .tsr { selectors := tsr }])) =
      .ok { sa := some { proposals := props }, nonce,
            ke := dh.map fun d => { group := d.group, data := d.pub }, tsi, tsr } := by
  cases dh <;> rfl

/-- What the other end collects from a request for a Child SA. -/
theorem collectPayloads_request (check : Bool) (suites : List EspSuite) (v6 : Bool) (oldInSPI : UInt32)
    (reestablish : Bool) (newSPI ni : Bytes) (dh : Option DH) :
    collectPayloads check {} (childRekeyRequest suites v6 oldInSPI reestablish newSPI ni dh) =
      .ok { sa := some { proposals := buildProposals newSPI suites (dh.toList.map DH.group) }, nonce := ni,
            ke := dh.map fun d => { group := d.group, data := d.pub },
            tsi := fullSelectors v6, tsr := fullSelectors v6 } := by
  rw [← collectPayloads_child check]
  cases reestablish <;> cases check <;> rfl

theorem childRekeyRequestPayloads_request {suites : List EspSuite} {v6 reestablish : Bool}
    {oldInSPI : UInt32} {newSPI ni : Bytes} {dh : Option DH} (hni : ni.length = nonceLen) :
    childRekeyRequestPayloads (childRekeyRequest suites v6 oldInSPI reestablish newSPI ni dh) =
      .ok { sa := { proposals := buildProposals newSPI suites (dh.toList.map DH.group) }, ni,
            ke := dh.map fun d => { group := d.group, data := d.pub },
            tsi := fullSelectors v6, tsr := fullSelectors v6 } := by
  have hne : ¬ ni.length = 0 := by rw [hni]; decide
  rw [childRekeyRequestPayloads, collectPayloads_request]
  exact if_neg hne

/-- What an initiator collects from the answer that accepts its Child SA. -/
theorem collectPayloads_answer {v6 : Bool} {number : UInt8} {suite : EspSuite} {newSPI nr : Bytes}
    {dh : Option DH} {req : ChildRekeyRequest} {acc : RekeyPayloads}
    (h : collectPayloads true {} (childRekeyAnswer v6 number suite newSPI nr dh req) = .ok acc) :
    acc.sa = some { proposals := [buildProposalForSuite number suite newSPI (dh.toList.map DH.group)] } ∧
      acc.nonce = nr ∧ acc.ke = dh.map fun d => { group := d.group, data := d.pub } := by
  unfold childRekeyAnswer at h
  split at h
  · cases (collectPayloads_child ..).symm.trans h
    exact ⟨rfl, rfl, rfl⟩
  · cases (collectPayloads_child ..).symm.trans h
    exact ⟨rfl, rfl, rfl⟩

theorem spi_of_mem_buildProposals {ID : Type} [SuiteID ID] {spi : Bytes} {groups : List UInt16}
    {suites : List (TransformSuite ID)} {p : Proposal} (h : p ∈ buildProposals spi suites groups) :
    p.spi = spi ∧ ∃ s ∈ suites, p.protocol = s.protocol := by
  have hfrom (i : Nat) (suites : List (TransformSuite ID))
      (h : p ∈ buildProposalsFrom i spi groups suites) :
      p.spi = spi ∧ ∃ s ∈ suites, p.protocol = s.protocol := by
    induction suites generalizing i with
    | nil => cases h
    | cons s suites ih =>
        rcases List.mem_cons.mp h with rfl | h
        · exact ⟨rfl, s, List.mem_cons_self, rfl⟩
        · obtain ⟨hspi, t, ht, hp⟩ := ih (i + 1) h
          exact ⟨hspi, t, List.mem_cons_of_mem _ ht, hp⟩
  exact hfrom 0 suites h

/-! ## A Child SA exchange -/

theorem deriveChildKeys_congr {a b : IKESA} (h : a.skd = b.skd) (shared ni nr : Bytes) (n k : Nat) :
    a.deriveChildKeys c shared ni nr n k = b.deriveChildKeys c shared ni nr n k := by
  rw [IKESA.deriveChildKeys, IKESA.deriveChildKeys, h]

/-- The keys the initiator derives are those of the responder. -/
theorem childRekeyKeys_agrees {saI saR : IKESA} {ctx : ChildRekeyCtx} {prop : Proposal} {suite : EspSuite}
    {nr : Bytes} {pfs : Option (DH × Bytes)} {keysI keysR : ChildKeys} (hskd : saI.skd = saR.skd)
    (hdh : ∀ dh, ctx.dh = some dh → ∃ group rand, newDH c group rand = .ok dh)
    (hpfs : Agrees c (ctx.dh.map fun d => { group := d.group, data := d.pub }) pfs)
    (hI : childRekeyKeys c saI ctx prop suite nr
      ((pfs.map Prod.fst).map fun d => { group := d.group, data := d.pub }) = .ok keysI)
    (hR : saR.deriveChildKeys c ((pfs.map Prod.snd).getD []) ctx.ni nr suite.encrKeyLen
      suite.integKeyLen = .ok keysR) : keysI = keysR := by
  rw [← deriveChildKeys_congr hskd] at hR
  cases hctx : ctx.dh with
  | none =>
      rw [hctx] at hpfs
      cases hpfs
      unfold childRekeyKeys at hI
      simp only [hctx, Option.map_none, Option.isSome_none, Bool.false_eq_true, false_and, if_false] at hI
      exact Except.ok.inj (hI.symm.trans hR)
  | some dhI =>
      rw [hctx] at hpfs
      cases hpfs with
      | @pfs _ rand dhR sharedR hnew hsharedR =>
          unfold childRekeyKeys at hI
          have hgroup := (group_of_newDH hnew).1
          simp only [hctx, Option.map_some, hgroup, ne_eq, not_true, if_false, bind_eq_ok,
            wrapErr_eq_ok] at hI
          obtain ⟨sharedI, hsharedI, hI⟩ := hI
          rw [shared_eq_of_newDH (hdh dhI hctx) hnew hsharedI hsharedR] at hI
          exact Except.ok.inj (hI.symm.trans hR)

/-- The suite an initiator reads from the answer is the one the responder chose. -/
theorem suite_eq_of_answer {ID : Type} [SuiteID ID] {table enabled : List (TransformSuite ID)}
    {number : UInt8} {suiteI suiteR : TransformSuite ID} {spi : Bytes} {dh : Option DH}
    (hdistinct : DistinctEncr table) (henabled : ∀ s ∈ enabled, s ∈ table) (hsuite : suiteR ∈ table)
    (hdh : ∀ d, dh = some d → ∃ group rand, newDH c group rand = .ok d)
    (hsel : selectedSuite (buildProposalForSuite number suiteR spi (dh.toList.map DH.group)) enabled =
      some suiteI) : suiteI = suiteR := by
  obtain ⟨group, hgroup⟩ := groups_eq_answerGroups hdh
  rw [hgroup] at hsel
  obtain ⟨hmem, hfor⟩ := mem_of_selectedSuite hsel
  exact Narrowed.unique hdistinct hsuite (henabled _ hmem) (narrowed_build ..) (isSelectionFor_iff.mp hfor)

theorem Agrees.newDH {ke : Option KEPayload} {pfs : Option (DH × Bytes)} (h : Agrees c ke pfs) (dh : DH)
    (hdh : pfs.map Prod.fst = some dh) : ∃ group rand, Ikesa.newDH c group rand = .ok dh := by
  cases h with
  | plain => cases hdh
  | pfs hnew hshared =>
      cases hdh
      exact ⟨_, _, hnew⟩

/-- The initiator of a Child SA exchange that reads a result from the answer has the other
half of what the responder installed. -/
theorem AcceptsChild.complements {m m' : Machine} {saI saR : IKESA} {ctx : ChildRekeyCtx}
    {req resp : Payloads} {u : ChildSAUpdate} {enabled : List EspSuite} {respSPI : UInt32}
    {suite : EspSuite} {keys : ChildKeys} (haccept : AcceptsChild c m' saR req resp u)
    (hskd : saI.skd = saR.skd) (hasks : Asks c m (.childRekey ctx) exchangeCreateChildSA req)
    (henabled : ∀ s ∈ enabled, s ∈ espSuites)
    (hresult : childRekeyResult c enabled saI ctx resp = .ok (respSPI, suite, keys)) :
    ChildSAUpdate.Complements
      { newInSPI := ctx.newInSPI, newOutSPI := respSPI, oldInSPI := ctx.oldInSPI,
        suite := suite.id, outEncr := keys.encrIR, outInteg := keys.integIR,
        inEncr := keys.encrRI, inInteg := keys.integRI } u := by
  cases hasks with
  | childRekey ctx newSPI hspi hlen hni hdh hold hflag =>
  cases haccept with
  | @intro rq prop suiteR pfs newSPI' nr newInSPI serverNewSPI keysR oldInSPI _ hreq hselect hprop hpfs hnew _ hnr hkeys =>
      cases (childRekeyRequestPayloads_request hni).symm.trans hreq
      simp only [childRekeyResult, bind_eq_ok, pure_eq_ok, Except.ok.injEq, Prod.mk.injEq] at hresult
      obtain ⟨⟨prop', suite', nr', ke'⟩, hresp, spi, hspi', keys', hkeysI, rfl, rfl, rfl⟩ := hresult
      obtain ⟨acc, saP, rest, hacc, hsa, hprops, hsel, -, -, rfl, rfl⟩ := childRekeyResponse_eq_ok hresp
      obtain ⟨hsa', rfl, hke⟩ := collectPayloads_answer hacc
      cases hsa.symm.trans hsa'
      cases hprops
      rw [hke] at hkeysI
      obtain ⟨hsuite, hmem, -⟩ := selectProposal_eq_some hselect
      obtain rfl := suite_eq_of_answer distinctEncr_espSuites henabled (mem_of_mem_enabledSuites hsuite)
        hpfs.newDH hsel
      obtain rfl := childRekeyKeys_agrees hskd hdh hpfs hkeysI hkeys
      obtain ⟨hpspi, -⟩ := spi_of_mem_buildProposals hmem
      rw [hpspi, hspi] at hprop
      exact ⟨rfl, Except.ok.inj (hspi'.symm.trans hnew), Except.ok.inj hprop, rfl, rfl, rfl, rfl⟩

/-! ## An IKE SA exchange -/

theorem ikeRekeyPayloads_eq_ok {inner : Payloads} {saP : SAPayload} {nonce : Bytes} {ke : KEPayload}
    (h : ikeRekeyPayloads inner = .ok (saP, nonce, ke)) :
    ∃ acc, collectPayloads true {} inner = .ok acc ∧ acc.sa = some saP ∧ acc.nonce = nonce ∧
      acc.ke = some ke := by
  unfold ikeRekeyPayloads at h
  rw [bind_eq_ok] at h
  obtain ⟨acc, hacc, h⟩ := h
  cases hsa : acc.sa with
  | none =>
      rw [hsa] at h
      cases h
  | some saP' =>
      rw [hsa] at h
      cases hke : acc.ke with
      | none =>
          rw [hke] at h
          cases h
      | some ke' =>
          rw [hke] at h
          dsimp only at h
          split at h
          · cases h
          · cases h
            exact ⟨acc, hacc, hsa, rfl, hke⟩

/-- What the other end collects from a message of an IKE SA exchange. -/
theorem ikeRekeyPayloads_message {props : List Proposal} {nonce : Bytes} {dh : DH} {saP : SAPayload}
    {nonce' : Bytes} {ke : KEPayload}
    (h : ikeRekeyPayloads [.sa { proposals := props }, .nonce { data := nonce },
      .ke { group := dh.group, data := dh.pub }] = .ok (saP, nonce', ke)) :
    saP = { proposals := props } ∧ nonce' = nonce ∧ ke = { group := dh.group, data := dh.pub } := by
  obtain ⟨acc, hacc, hsa, hnonce, hke⟩ := ikeRekeyPayloads_eq_ok h
  cases hacc
  cases hsa
  cases hke
  exact ⟨rfl, hnonce.symm, rfl⟩

theorem ikeRekeyResult_eq_ok {enabled : List IkeSuite} {skd : Bytes} {ctx : IkeRekeyCtx} {inner : Payloads}
    {spir : UInt64} {new : IKESA} (h : ikeRekeyResult c enabled skd ctx inner = .ok (spir, new)) :
    ∃ saP nr ke prop rest suite shared, ikeRekeyPayloads inner = .ok (saP, nr, ke) ∧
      saP.proposals = prop :: rest ∧ selectedSuite prop enabled = some suite ∧
      uint64 prop.spi = .ok spir ∧ ke.group = ctx.dh.group ∧ ctx.dh.shared c ke.data = .ok shared ∧
      deriveRekeyIKE c suite.id skd .initiator ctx.newSPIi spir ctx.ni nr shared = .ok new := by
  unfold ikeRekeyResult at h
  rw [bind_eq_ok] at h
  obtain ⟨⟨saP, nr, ke⟩, hpayloads, h⟩ := h
  dsimp only at h
  cases hprops : saP.proposals with
  | nil =>
      rw [hprops] at h
      cases h
  | cons prop rest =>
      rw [hprops] at h
      dsimp only at h
      cases hsel : selectedSuite prop enabled with
      | none =>
          rw [hsel] at h
          cases h
      | some suite =>
          rw [hsel] at h
          dsimp only at h
          split at h
          · cases h
          rw [bind_eq_ok] at h
          obtain ⟨spir', hspir, h⟩ := h
          split at h
          · cases h
          rename_i hgroup
          simp only [bind_eq_ok, wrapErr_eq_ok, pure_eq_ok, Except.ok.injEq, Prod.mk.injEq] at h
          obtain ⟨shared, hshared, new', hnew, rfl, rfl⟩ := h
          exact ⟨saP, nr, ke, prop, rest, suite, shared, hpayloads, hprops, hsel, hspir,
            not_not.mp hgroup, hshared, hnew⟩

/-- The initiator of an IKE SA exchange that reads a result from the answer has the other
end of the IKE SA of the responder. -/
theorem AcceptsIKE.mirrors {m m' : Machine} {skd : Bytes} {ctx : IkeRekeyCtx} {req resp : Payloads}
    {new : IkeCtx} {enabled : List IkeSuite} {spir : UInt64} {newIKE : IKESA}
    (haccept : AcceptsIKE c m' req resp new) (hskd : skd = m'.ike.sa.skd)
    (hasks : Asks c m (.ikeRekey ctx) exchangeCreateChildSA req)
    (henabled : ∀ s ∈ enabled, s ∈ ikeSuites)
    (hresult : ikeRekeyResult c enabled skd ctx resp = .ok (spir, newIKE)) :
    IkeCtx.Mirrors { sa := newIKE, spii := ctx.newSPIi, spir } new := by
  subst hskd
  cases hasks with
  | ikeRekey ctx hni hdh =>
  cases haccept with
  | @intro saP ni kei prop suiteR rand dh shared nr spii spir' newR hreq hselect hspi hnew hshared hnr hder =>
      obtain ⟨rfl, rfl, rfl⟩ := ikeRekeyPayloads_message hreq
      obtain ⟨saP', nr', ke', prop', rest, suiteI, sharedI, hpay, hprops, hsel, hspir, hgroup, hsharedI,
        hderI⟩ := ikeRekeyResult_eq_ok hresult
      obtain ⟨rfl, rfl, rfl⟩ := ikeRekeyPayloads_message hpay
      cases hprops
      have hresp (d : DH) (hd : some dh = some d) : ∃ group rand, newDH c group rand = .ok d := by
        cases hd
        exact ⟨_, _, hnew⟩
      obtain ⟨hsuite, hmem, -⟩ := selectProposal_eq_some hselect
      obtain rfl : suiteI = suiteR := suite_eq_of_answer distinctEncr_ikeSuites henabled
        (mem_of_mem_enabledSuites hsuite) hresp hsel
      obtain ⟨hpspi, -⟩ := spi_of_mem_buildProposals hmem
      obtain rfl : sharedI = shared := shared_eq_of_newDH hdh hnew hsharedI hshared
      rw [hpspi] at hspi
      cases (uint64_putUint64 ctx.newSPIi).symm.trans hspi
      cases (uint64_putUint64 spir').symm.trans hspir
      obtain ⟨-, -, -, -, other, hother, hmirror⟩ := deriveRekeyIKE_ok hderI
      cases hder.symm.trans hother
      exact ⟨hmirror, rfl, rfl⟩

/-! ## Answers of another kind -/

/-- An answer that changes nothing gives no result. -/
theorem Declines.collectPayloads {exchange : ExchangeType} {inner : Payloads} (h : Declines exchange inner)
    {acc : RekeyPayloads} (hacc : Session.collectPayloads true {} inner = .ok acc) : acc.sa = none := by
  cases h with
  | ack =>
      cases hacc
      rfl
  | notify n herror hspi hdata =>
      simp only [Session.collectPayloads, Bool.true_and, herror, if_true] at hacc
      cases hacc

theorem Declines.no_child {exchange : ExchangeType} {inner : Payloads} (h : Declines exchange inner)
    {enabled : List EspSuite} {sa : IKESA} {ctx : ChildRekeyCtx} {res : UInt32 × EspSuite × ChildKeys} :
    childRekeyResult c enabled sa ctx inner ≠ .ok res := by
  intro hres
  obtain ⟨respSPI, suite, keys⟩ := res
  simp only [childRekeyResult, bind_eq_ok] at hres
  obtain ⟨⟨prop, suite', nr, ke⟩, hresp, -⟩ := hres
  obtain ⟨acc, saP, rest, hacc, hsa, -⟩ := childRekeyResponse_eq_ok hresp
  cases (h.collectPayloads hacc).symm.trans hsa

theorem Declines.no_ike {exchange : ExchangeType} {inner : Payloads} (h : Declines exchange inner)
    {enabled : List IkeSuite} {skd : Bytes} {ctx : IkeRekeyCtx} {res : UInt64 × IKESA} :
    ikeRekeyResult c enabled skd ctx inner ≠ .ok res := by
  intro hres
  obtain ⟨saP, nr, ke, prop, rest, suite, shared, hpay, -⟩ := ikeRekeyResult_eq_ok hres
  obtain ⟨acc, hacc, hsa, -⟩ := ikeRekeyPayloads_eq_ok hpay
  cases (h.collectPayloads hacc).symm.trans hsa

theorem protocol_espSuites {s : EspSuite} (h : s ∈ espSuites) : s.protocol = protocolESP := by
  revert s
  decide

theorem protocol_ikeSuites {s : IkeSuite} (h : s ∈ ikeSuites) : s.protocol = protocolIKE := by
  revert s
  decide

/-- A suite is chosen from an offer of suites of the same protocol. -/
theorem protocol_of_selectProposal {ID ID' : Type} [SuiteID ID] [SuiteID ID'] {spi : Bytes}
    {offered : List (TransformSuite ID)} {enabled : List (TransformSuite ID')} {groups : List UInt16}
    {group : UInt16} {prop : Proposal} {suite : TransformSuite ID'}
    (h : selectProposal { proposals := buildProposals spi offered groups } enabled group =
      some (prop, suite)) : suite ∈ enabled ∧ ∃ t ∈ offered, t.protocol = suite.protocol := by
  obtain ⟨hsuite, hmem, hmatch, -⟩ := selectProposal_eq_some h
  obtain ⟨-, t, ht, hp⟩ := spi_of_mem_buildProposals hmem
  exact ⟨hsuite, t, ht, hp.symm.trans (suiteMatches_iff.mp hmatch).protocol⟩

theorem Asks.exchange_eq {m : Machine} {kind : ExchangeKind} {exchange : ExchangeType} {inner : Payloads}
    (h : Asks c m kind exchange inner) (hk : kind.isRekey = true) : exchange = exchangeCreateChildSA := by
  cases h with
  | dpd | delete => cases hk
  | childRekey | ikeRekey => rfl

/-- What is asked for a Child SA is not accepted as an IKE SA. -/
theorem Asks.child_not_ike {m m' : Machine} {ctx : ChildRekeyCtx} {req resp : Payloads} {new : IkeCtx}
    (hasks : Asks c m (.childRekey ctx) exchangeCreateChildSA req) : ¬ AcceptsIKE c m' req resp new := by
  intro haccept
  cases hasks with
  | childRekey ctx newSPI hspi hlen hni hdh hold hflag =>
  cases haccept with
  | @intro saP ni kei prop suite rand dh shared nr spii spir newIKE hreq hselect =>
      obtain ⟨acc, hacc, hsa, -⟩ := ikeRekeyPayloads_eq_ok hreq
      cases (collectPayloads_request ..).symm.trans hacc
      cases hsa
      obtain ⟨hsuite, t, ht, hprotocol⟩ := protocol_of_selectProposal hselect
      rw [protocol_espSuites (mem_of_mem_enabledSuites ht),
        protocol_ikeSuites (mem_of_mem_enabledSuites hsuite)] at hprotocol
      cases hprotocol

/-- What is asked for an IKE SA is not accepted as a Child SA. -/
theorem Asks.ike_not_child {m m' : Machine} {sa : IKESA} {ctx : IkeRekeyCtx} {req resp : Payloads}
    {u : ChildSAUpdate} (hasks : Asks c m (.ikeRekey ctx) exchangeCreateChildSA req) :
    ¬ AcceptsChild c m' sa req resp u := by
  intro haccept
  cases hasks with
  | ikeRekey ctx hni hdh =>
  cases haccept with
  | @intro rq prop suite pfs newSPI nr newInSPI serverNewSPI keys oldInSPI _ hreq hselect =>
      have hne : ¬ ctx.ni.length = 0 := by rw [hni]; decide
      have hcollect : childRekeyRequestPayloads
          (ikeRekeyRequest m.ikeSuites (putUint64 ctx.newSPIi) ctx.ni ctx.dh) = .ok _ := if_neg hne
      cases hcollect.symm.trans hreq
      obtain ⟨hsuite, t, ht, hprotocol⟩ := protocol_of_selectProposal hselect
      rw [protocol_espSuites (mem_of_mem_enabledSuites hsuite),
        protocol_ikeSuites (mem_of_mem_enabledSuites ht)] at hprotocol
      cases hprotocol

end

end GoIpsec.Session
