import GoIpsec.Session.Actions
import GoIpsec.Session.Replacement

/-!
# Completing a rekey

What the completion of a rekey of ours tells its caller by its error, and what it has
done by then.

The completion of an IKE SA does nothing before the last check that can fail.  The
completion of a Child SA ends by deleting the one it replaced, and returns the error of
that request like any other, when the new Child SA is already in place.  The caller
takes it for a completion that did not happen, and leaves the next rekey where it was.
-/

set_option linter.dupNamespace false

namespace GoIpsec.Session

open Golang Ikemsg Ikesa

section

variable {c : Crypto} {env : Env} {d d' : Drive}

/-! ## The delete of the replaced Child SA -/

/-- The request that deletes a Child SA. -/
def childDelete (inSPI : UInt32) : Payloads :=
  [.delete { protocol := protocolESP, spis := [putUint32 inSPI] }]

/-- A delete of a Child SA gets out: it can be encoded, and the transport takes it. -/
def DeleteGoesOut (c : Crypto) (env : Env) (d : Drive) (inSPI : UInt32) : Prop :=
  (encodeSKWith c d.s.ikeSA (env.rand d.reads) d.s.initiatorSPI d.s.responderSPI
    exchangeInformational (ikeRoleBit d.s.ikeSA.role) d.s.messageID (childDelete inSPI)).1.isOk = true ∧
  env.sendOK d.sent.length = true

/-- Nothing that is sent or encoded touches the Child SA. -/
def SameChild (d d' : Drive) : Prop :=
  updates d'.log = updates d.log ∧ d'.s.child = d.s.child ∧
    d'.s.childInstalledAt = d.s.childInstalledAt ∧ d'.s.childReestablish = d.s.childReestablish ∧
    d'.s.nextChildRekey = d.s.nextChildRekey ∧ d'.s.cfg = d.s.cfg

/-- The outcome of a delete: it is returned without error just if the delete gets out. -/
theorem sendChildDelete_outcome (inSPI : UInt32) :
    ((sendChildDelete c env inSPI d).1 = .ok () ↔ DeleteGoesOut c env d inSPI) ∧
      SameChild d (sendChildDelete c env inSPI d).2 := by
  have hrun : sendChildDelete c env inSPI d =
      (encodeSK c env exchangeInformational (ikeRoleBit d.s.ikeSA.role) d.s.messageID
        (childDelete inSPI) >>= fun raw =>
          setPending env .delete d.s.messageID raw d.s.retransmitBase false >>= fun _ =>
            sendDatagram env raw) d := rfl
  unfold DeleteGoesOut
  rcases henc : encodeSKWith c d.s.ikeSA (env.rand d.reads) d.s.initiatorSPI d.s.responderSPI
      exchangeInformational (ikeRoleBit d.s.ikeSA.role) d.s.messageID (childDelete inSPI) with ⟨res, sa⟩
  cases res with
  | error e =>
      have hx : encodeSK c env exchangeInformational (ikeRoleBit d.s.ikeSA.role) d.s.messageID
          (childDelete inSPI) d =
            (.error e, d.spend .cur d.s.ikeSA sa) := by
        simp only [encodeSK, encodeIn, Session.ctx, henc]
      rw [hrun, Proc.bind_of_error hx]
      exact ⟨by simp [Except.isOk, Except.toBool], rfl, rfl, rfl, rfl, rfl, rfl⟩
  | ok raw =>
      let sealing : Event := .sealed .cur { sa := d.s.ikeSA, spii := d.s.initiatorSPI, spir := d.s.responderSPI }
        exchangeInformational (ikeRoleBit d.s.ikeSA.role) d.s.messageID (childDelete inSPI) raw
      have hx : encodeSK c env exchangeInformational (ikeRoleBit d.s.ikeSA.role) d.s.messageID
          (childDelete inSPI) d =
            (.ok raw, { d.spend .cur d.s.ikeSA sa with log := sealing :: d.log }) := by
        simp only [encodeSK, encodeIn, Session.ctx, henc, sealing]
      rw [hrun, Proc.bind_of_ok hx]
      refine ⟨?_, rfl, rfl, rfl, rfl, rfl, rfl⟩
      change (if env.sendOK d.sent.length then Except.ok () else fail "transport: send failed") = _ ↔ _
      cases env.sendOK d.sent.length <;> simp [Except.isOk, Except.toBool, fail]

/-! ## Completion of a Child SA -/

/-- A response that can be used is one that gives a result. -/
theorem usableAnswer_iff {ctx : ChildRekeyCtx} {inner : Payloads} :
    usableAnswer c d.s.enabledESPSuites ctx inner = true ↔
      ∃ res, childRekeyResult c d.s.enabledESPSuites d.s.ikeSA ctx inner = .ok res := by
  refine ⟨childRekeyResult_of_usable fun s hs => mem_of_mem_enabledSuites hs, ?_⟩
  rintro ⟨⟨respSPI, suite, keys⟩, hres⟩
  simp only [childRekeyResult, bind_eq_ok, pure_eq_ok] at hres
  obtain ⟨⟨prop, suite', nr, ke⟩, hresp, spi, -, keys', hkeys, -⟩ := hres
  obtain ⟨acc, saP, rest, hacc, hsa, hprops, hsel, hlen, hnr, rfl, rfl⟩ :=
    childRekeyResponse_eq_ok hresp
  simp only [usableAnswer, hacc, hsa, Option.bind_some, hprops, List.head?_cons, hsel,
    Option.isSome_some, hlen, BEq.rfl, Bool.true_and, Bool.and_eq_true, bne_iff_ne]
  refine ⟨hnr, ?_⟩
  unfold childRekeyKeys at hkeys
  cases hdh : ctx.dh with
  | none =>
      cases hke : acc.ke with
      | none => rfl
      | some ke =>
          rw [hdh, hke] at hkeys
          cases hkeys
  | some dh =>
      cases hke : acc.ke with
      | none =>
          rw [hdh, hke] at hkeys
          by_cases hgroup : selectedDHGroup prop = 0
          · simp [hgroup]
          · simp only [Option.isSome_some, ne_eq, hgroup, not_false_eq_true, and_self, if_true] at hkeys
            cases hkeys
      | some ke =>
          rw [hdh, hke] at hkeys
          by_cases hgroup : ke.group = dh.group
          · simp only [hgroup, ne_eq, not_true, if_false, bind_eq_ok, wrapErr_eq_ok] at hkeys
            obtain ⟨shared, hshared, -⟩ := hkeys
            simp [hgroup, hshared, Except.isOk, Except.toBool]
          · simp only [ne_eq, hgroup, not_false_eq_true, if_true] at hkeys
            cases hkeys

/-- The completion of the Child SA exchange with context `ctx`, from the state in which
`completeMatchingRekey` calls it. -/
def completion (c : Crypto) (env : Env) (inner : Payloads) (p : PendingExchange)
    (ctx : ChildRekeyCtx) (d : Drive) : Go Unit × Drive :=
  completeChildRekey c env inner p.msgID ctx { d with s := { d.s with pending := none } }

/-- Whether a Child SA was installed from `d` to `d'`. -/
def Installed (d d' : Drive) : Prop := updates d'.log ≠ updates d.log

/-- All or nothing, and the error tells which. -/
structure ChildTruthful (c : Crypto) (env : Env) (inner : Payloads) (p : PendingExchange)
    (ctx : ChildRekeyCtx) (d : Drive) : Prop where
  /-- After an error, nothing was installed. -/
  nothing : ∀ text, (completion c env inner p ctx d).1 = .error (.err text) →
    ¬ Installed d (completion c env inner p ctx d).2 ∧
      (completion c env inner p ctx d).2.s.child = d.s.child ∧
      (completion c env inner p ctx d).2.s.childInstalledAt = d.s.childInstalledAt ∧
      (completion c env inner p ctx d).2.s.childReestablish = d.s.childReestablish
  /-- After an install, no error is returned. -/
  all : Installed d (completion c env inner p ctx d).2 → (completion c env inner p ctx d).1 = .ok ()
  /-- After an install, the next rekey is set from the time of the install. -/
  armed : ∀ r d', completeMatchingRekey c env p.msgID inner .cur d = (r, d') → Installed d d' →
    d'.s.childInstalledAt = env.clock .install ∧ ∃ d₁ d₂,
      jitteredDeadline env (env.clock .install) d.s.cfg.rekeyLifetime d₁ = (.ok d'.s.nextChildRekey, d₂)

/-- What follows the install of a Child SA of ours. -/
def afterInstall (c : Crypto) (env : Env) (ctx : ChildRekeyCtx) : Drv Unit :=
  if ctx.reestablish then pure ()
  else if ctx.oldInSPI = ctx.newInSPI then pure ()
  else sendChildDelete c env ctx.oldInSPI

/-- Nothing is to be deleted, or the delete gets out. -/
def Clears (c : Crypto) (env : Env) (d : Drive) (ctx : ChildRekeyCtx) : Prop :=
  ctx.reestablish = true ∨ ctx.oldInSPI = ctx.newInSPI ∨ DeleteGoesOut c env d ctx.oldInSPI

theorem afterInstall_outcome (ctx : ChildRekeyCtx) :
    ((afterInstall c env ctx d).1 = .ok () ↔ Clears c env d ctx) ∧
      SameChild d (afterInstall c env ctx d).2 := by
  unfold afterInstall Clears
  by_cases hre : ctx.reestablish = true
  · rw [if_pos hre]
    exact ⟨⟨fun _ => .inl hre, fun _ => rfl⟩, rfl, rfl, rfl, rfl, rfl, rfl⟩
  rw [if_neg hre]
  by_cases hsame : ctx.oldInSPI = ctx.newInSPI
  · rw [if_pos hsame]
    exact ⟨⟨fun _ => .inr (.inl hsame), fun _ => rfl⟩, rfl, rfl, rfl, rfl, rfl, rfl⟩
  rw [if_neg hsame]
  obtain ⟨hok, hchild⟩ : ((sendChildDelete c env ctx.oldInSPI d).1 = .ok () ↔ _) ∧ SameChild d _ :=
    sendChildDelete_outcome ctx.oldInSPI
  refine ⟨hok.trans ⟨fun h => .inr (.inr h), ?_⟩, hchild⟩
  rintro (h | h | h)
  · exact (hre h).elim
  · exact (hsame h).elim
  · exact h

/-- The state in which `afterInstall` is called. -/
def installedFor (env : Env) (p : PendingExchange) (ctx : ChildRekeyCtx) (d : Drive) (respSPI : UInt32)
    (suite : EspSuite) (keys : ChildKeys) : Drive :=
  { d with
    s := { d.s with
      pending := none
      child := some { initiatorSPI := ctx.newInSPI, responderSPI := respSPI, suite := suite.id, keys }
      childInstalledAt := env.clock .install
      childReestablish := false
      nextChildReestablish := 0 }
    log := .install .initiator .cur p.msgID
      { newInSPI := ctx.newInSPI, newOutSPI := respSPI, oldInSPI := ctx.oldInSPI,
        suite := suite.id, outEncr := keys.encrIR, outInteg := keys.integIR,
        inEncr := keys.encrRI, inInteg := keys.integRI } :: d.log }

variable {inner : Payloads} {p : PendingExchange} {ctx : ChildRekeyCtx}

/-- The next rekey of the Child SA is set from its install. -/
def rearm (env : Env) : Drv Unit := do
  let s ← session
  let deadline ← jitteredDeadline env s.childInstalledAt s.cfg.rekeyLifetime
  setSession fun s => { s with nextChildRekey := deadline }

theorem rearm_outcome (d : Drive) :
    ∃ t d₁, jitteredDeadline env d.s.childInstalledAt d.s.cfg.rekeyLifetime d = (.ok t, d₁) ∧
      d₁.s = d.s ∧ rearm env d = (.ok (), { d₁ with s := { d₁.s with nextChildRekey := t } }) := by
  obtain ⟨t, d₁, hx, hs, -⟩ := jitteredDeadline_ok env d.s.childInstalledAt d.s.cfg.rekeyLifetime d
  refine ⟨t, d₁, hx, hs, ?_⟩
  rw [rearm, run_session_bind, Proc.bind_of_ok hx]
  rfl

theorem completeMatchingRekey_childRekey (hp : d.s.pending = some p) (hk : p.kind = .childRekey ctx) :
    completeMatchingRekey c env p.msgID inner .cur d =
      (Proc.attempt (completeChildRekey c env inner p.msgID ctx) >>= fun err =>
        match err with
        | some _ => pure ()
        | none => rearm env) { d with s := { d.s with pending := none } } := by
  simp only [completeMatchingRekey, run_session_bind, hp, ne_eq, not_true, if_false, hk,
    run_setSession_bind]
  rfl

/-- A response that gives no result changes nothing but the outstanding exchange. -/
theorem completion_of_unusable {e : Fault}
    (h : childRekeyResult c d.s.enabledESPSuites d.s.ikeSA ctx inner = .error e) :
    completion c env inner p ctx d = (.error e, { d with s := { d.s with pending := none } }) :=
  completeChildRekey_failed h

theorem completion_of_usable {respSPI : UInt32} {suite : EspSuite} {keys : ChildKeys}
    (hdp : d.s.dataPlane = true)
    (h : childRekeyResult c d.s.enabledESPSuites d.s.ikeSA ctx inner = .ok (respSPI, suite, keys)) :
    completion c env inner p ctx d =
      afterInstall c env ctx (installedFor env p ctx d respSPI suite keys) :=
  completeChildRekey_apply (d := { d with s := { d.s with pending := none } }) hdp h

theorem childTruthful_of_unusable {e : Fault} (hp : d.s.pending = some p)
    (hk : p.kind = .childRekey ctx)
    (h : childRekeyResult c d.s.enabledESPSuites d.s.ikeSA ctx inner = .error e) :
    ChildTruthful c env inner p ctx d := by
  have hrun : completion c env inner p ctx d = _ := completion_of_unusable h
  refine ⟨fun _ _ => ?_, fun hinst => ?_, fun r d' hstep hinst => ?_⟩
  · rw [hrun]
    exact ⟨fun hinst => hinst rfl, rfl, rfl, rfl⟩
  · rw [hrun] at hinst
    exact (hinst rfl).elim
  · refine (hinst ?_).elim
    have hgo := (completeMatchingRekey_childRekey hp hk).symm.trans hstep
    rcases Proc.attempt_bind_of_error hrun with ⟨text, hend⟩ | hend
    · cases hend.symm.trans hgo
      rfl
    · cases hend.symm.trans hgo
      rfl

theorem childTruthful_of_usable {respSPI : UInt32} {suite : EspSuite} {keys : ChildKeys}
    (hdp : d.s.dataPlane = true) (hp : d.s.pending = some p) (hk : p.kind = .childRekey ctx)
    (h : childRekeyResult c d.s.enabledESPSuites d.s.ikeSA ctx inner = .ok (respSPI, suite, keys)) :
    ChildTruthful c env inner p ctx d ↔ Clears c env d ctx := by
  have hrun : completion c env inner p ctx d = _ := completion_of_usable hdp h
  obtain ⟨hok, hlog, -, hat, -, -, hcfg⟩ : ((afterInstall c env ctx
      (installedFor env p ctx d respSPI suite keys)).1 = .ok () ↔ _) ∧ SameChild _ _ :=
    afterInstall_outcome ctx
  -- what is deleted after the install does not depend on the install
  have hsame : Clears c env (installedFor env p ctx d respSPI suite keys) ctx ↔ Clears c env d ctx :=
    Iff.rfl
  have hinstalled : Installed d (completion c env inner p ctx d).2 := by
    intro heq
    rw [hrun, hlog] at heq
    exact List.cons_ne_self _ _ heq
  refine ⟨fun ht => hsame.mp (hok.mp ?_), fun hclears => ?_⟩
  · rw [← hrun]
    exact ht.all hinstalled
  · have hres : (completion c env inner p ctx d).1 = .ok () := hrun ▸ hok.mpr (hsame.mpr hclears)
    refine ⟨fun text herr => ?_, fun _ => hres, fun r d' hstep _ => ?_⟩
    · rw [hres] at herr
      cases herr
    · have hgo := (completeMatchingRekey_childRekey hp hk).symm.trans hstep
      obtain ⟨t, d₁, hx, hs, hrearm⟩ := rearm_outcome (completion c env inner p ctx d).2
      have hend := (Proc.attempt_bind_of_ok (Proc.eq_ok_of_fst hres)).symm.trans hgo
      cases hrearm.symm.trans hend
      have hat' : (completion c env inner p ctx d).2.s.childInstalledAt = env.clock .install := by
        rw [hrun]
        exact hat
      have hcfg' : (completion c env inner p ctx d).2.s.cfg = d.s.cfg := by
        rw [hrun]
        exact hcfg
      rw [hat', hcfg'] at hx
      refine ⟨?_, _, _, hx⟩
      show d₁.s.childInstalledAt = _
      rw [hs, hat']

/-! ## Completion of an IKE SA -/

/-- An error comes from the checks of the response, before anything is done. -/
theorem completeIKERekey_error {msgID : UInt32} {ictx : IkeRekeyCtx} {text : String}
    (h : completeIKERekey c env inner msgID ictx d = (.error (.err text), d')) : d' = d := by
  rw [completeIKERekey, run_session_bind] at h
  cases hres : ikeRekeyResult c d.s.enabledIKESuites d.s.ikeSA.skd ictx inner with
  | error e =>
      rw [hres] at h
      have hend : (Except.error e, d) = (Except.error (.err text), d') := h
      exact (Prod.mk.inj hend).2.symm
  | ok res =>
      obtain ⟨newSPIr, newIKE⟩ := res
      rw [Proc.bind_lift_of_ok hres] at h
      rcases hdel : sendIKEDeleteUnderCurrent c env d with ⟨r, d₁⟩
      by_cases hsafe : Safe r
      · obtain ⟨o, hgo⟩ := Proc.attempt_bind_of_safe hdel hsafe
        obtain ⟨d₂, hswap, -⟩ : ∃ d₂, swapIKE env newIKE ictx.newSPIi newSPIr _ = (.ok (), d₂) ∧ _ :=
          swapIKE_run (d := d₁) c (fun _ => True) .initiator msgID newIKE ictx.newSPIi newSPIr trivial
        have hend := h.symm.trans (hgo.trans (run_emit_bind _ _ _))
        cases hend.trans hswap
      · obtain ⟨e, he, hgo⟩ := Proc.attempt_bind_of_fault hdel hsafe
        cases h.symm.trans hgo
        exact (he text rfl).elim

/-- The completion of a rekey of ours is all or nothing just if the response cannot be
used, or nothing is to be deleted after the install, or the delete gets out. -/
theorem rekey_completion_iff (c : Crypto) (env : Env) (inner : Payloads) (p : PendingExchange)
    (ctx : ChildRekeyCtx) (d : Drive) (hdp : d.s.dataPlane = true) (hp : d.s.pending = some p)
    (hk : p.kind = .childRekey ctx) :
    (ChildTruthful c env inner p ctx d ∧
      ∀ msgID ictx text d', completeIKERekey c env inner msgID ictx d = (.error (.err text), d') →
        d'.s = d.s) ↔
      (usableAnswer c d.s.enabledESPSuites ctx inner = true →
        ctx.reestablish = true ∨ ctx.oldInSPI = ctx.newInSPI ∨ DeleteGoesOut c env d ctx.oldInSPI) := by
  have hike (msgID : UInt32) (ictx : IkeRekeyCtx) (text : String) (d' : Drive)
      (h : completeIKERekey c env inner msgID ictx d = (.error (.err text), d')) : d'.s = d.s := by
    rw [completeIKERekey_error h]
  rw [and_iff_left hike, usableAnswer_iff]
  cases hres : childRekeyResult c d.s.enabledESPSuites d.s.ikeSA ctx inner with
  | error e =>
      refine ⟨fun _ hsome => ?_, fun _ => childTruthful_of_unusable hp hk hres⟩
      obtain ⟨res, hres'⟩ := hsome
      cases hres'
  | ok res =>
      obtain ⟨respSPI, suite, keys⟩ := res
      refine (childTruthful_of_usable hdp hp hk hres).trans ⟨fun h _ => h, fun h => h ⟨_, rfl⟩⟩

end

/-! ## A delete that does not get out -/

def sampleRekeyCtx : ChildRekeyCtx where
  newInSPI := 0x44
  oldInSPI := 0x11
  ni := List.replicate 32 1
  reestablish := false
  dh := none

def sampleRekey : PendingExchange where
  kind := .childRekey sampleRekeyCtx
  msgID := 2
  raw := []
  attempts := 1
  nextRetransmit := 0

/-- The rekey of the Child SA of `sampleSession` is outstanding. -/
def sampleRekeying : Drive := { s := { sampleSession .initiator with pending := some sampleRekey } }

/-- The peer accepts the rekey. -/
def sampleAccepted : Payloads :=
  [.sa { proposals := espSuites.take 1 |>.map fun s => buildProposalForSuite 1 s [0, 0, 0, 0x55] [] },
   .nonce { data := List.replicate 32 2 }]

/-- An outside whose transport takes nothing. -/
def sampleBlocked : Env := { sampleEnv 2 with sendOK := fun _ => false }

theorem rekey_completion_iff_sample :
    usableAnswer Crypto.sample sampleRekeying.s.enabledESPSuites sampleRekeyCtx sampleAccepted = true ∧
      ChildTruthful Crypto.sample (sampleEnv 2) sampleAccepted sampleRekey sampleRekeyCtx
        sampleRekeying := by
  refine ⟨by decide +kernel, ((rekey_completion_iff .sample (sampleEnv 2) sampleAccepted sampleRekey
    sampleRekeyCtx sampleRekeying rfl rfl rfl).mpr fun _ => .inr (.inr ?_)).1⟩
  exact ⟨by decide +kernel, rfl⟩

/-- The delete cannot be sent: an error is returned, and the Child SA is installed. -/
theorem rekey_error_after_install :
    (completion Crypto.sample sampleBlocked sampleAccepted sampleRekey sampleRekeyCtx
        sampleRekeying).1 = .error (.err "transport: send failed") ∧
      ¬ ChildTruthful Crypto.sample sampleBlocked sampleAccepted sampleRekey sampleRekeyCtx
        sampleRekeying := by
  have herr : (completion Crypto.sample sampleBlocked sampleAccepted sampleRekey sampleRekeyCtx
      sampleRekeying).1 = .error (.err "transport: send failed") := by decide +kernel
  have hinstalled : updates (completion Crypto.sample sampleBlocked sampleAccepted sampleRekey
      sampleRekeyCtx sampleRekeying).2.log ≠ updates sampleRekeying.log := by decide +kernel
  exact ⟨herr, fun h => (h.nothing _ herr).1 hinstalled⟩

end GoIpsec.Session
