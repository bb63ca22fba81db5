import GoIpsec.Session.Refinement

/-!
# Turns of the control loop

The rest of the refinement: exchanges of ours that end, the dispatch of a message,
and the timers.  `driverStep_sim` is the statement for a whole turn.
-/

set_option linter.dupNamespace false

namespace GoIpsec.Session

open Golang Ikemsg Ikesa

section

variable {c : Crypto} {env : Env} {r : Rules} {d : Drive} {h : Hand}

/-! ## Responses of the peer -/

/-- The message is in hand, and it is not a request that has been taken up. -/
def Hand.holding (x : Msg) : Hand := { msg := some x }

/-- The message in hand can be done with. -/
structure Hand.Settled (h : Hand) : Prop where
  owed : h.owed = false
  opened : h.opened = false
  busy : h.busy = false

theorem Hand.settled_holding (x : Msg) : (Hand.holding x).Settled := ⟨rfl, rfl, rfl⟩

/-- A response that is in hand for the pending exchange. -/
theorem Drive.replies {x : Msg} {p : PendingExchange} (hslot : x.slot = .cur)
    (hexchange : x.exchange = exchangeCreateChildSA) (hresp : x.flags.isResponse = true)
    (hp : d.s.pending = some p) (hid : p.msgID = x.msgID) :
    (d.view (.holding x)).Replies x p.kind where
  msg := rfl
  opened := rfl
  slot := hslot
  exchange := hexchange
  response := hresp
  pending := by simp only [Drive.view, hp, Option.map_some, hid]

theorem completeChildRekey_apply {inner : Payloads} {msgID : UInt32} {ctx : ChildRekeyCtx}
    {respSPI : UInt32} {suite : EspSuite} {keys : ChildKeys} (hdp : d.s.dataPlane = true)
    (hresult : childRekeyResult c d.s.enabledESPSuites d.s.ikeSA ctx inner = .ok (respSPI, suite, keys)) :
    completeChildRekey c env inner msgID ctx d =
      (if ctx.reestablish then pure ()
       else if ctx.oldInSPI = ctx.newInSPI then pure ()
       else sendChildDelete c env ctx.oldInSPI : Drv Unit)
        { d with
          s := { d.s with
            child := some { initiatorSPI := ctx.newInSPI, responderSPI := respSPI,
                            suite := suite.id, keys }
            childInstalledAt := env.clock .install
            childReestablish := false
            nextChildReestablish := 0 }
          log := .install .initiator .cur msgID
            { newInSPI := ctx.newInSPI, newOutSPI := respSPI, oldInSPI := ctx.oldInSPI,
              suite := suite.id, outEncr := keys.encrIR, outInteg := keys.integIR,
              inEncr := keys.encrRI, inInteg := keys.integRI } :: d.log } := by
  have hlift : Proc.lift (childRekeyResult c d.s.enabledESPSuites d.s.ikeSA ctx inner) d =
      (.ok (respSPI, suite, keys), d) := by
    rw [hresult]
    rfl
  rw [completeChildRekey, run_session_bind, Proc.bind_of_ok hlift]
  dsimp only
  rw [run_installChildSA_bind _ hdp, run_setSession_bind]

theorem completeChildRekey_failed {inner : Payloads} {msgID : UInt32} {ctx : ChildRekeyCtx}
    {e : Fault}
    (hresult : childRekeyResult c d.s.enabledESPSuites d.s.ikeSA ctx inner = .error e) :
    completeChildRekey c env inner msgID ctx d = (.error e, d) := by
  have hlift : Proc.lift (childRekeyResult c d.s.enabledESPSuites d.s.ikeSA ctx inner) d =
      (.error e, d) := by
    rw [hresult]
    rfl
  rw [completeChildRekey, run_session_bind, Proc.bind_of_error hlift]

/-- The next rekey of the Child SA is scheduled. -/
theorem scheduleChildRekey_sim :
    Sim c r d h (do
      let s ← session
      let deadline ← jitteredDeadline env s.childInstalledAt s.cfg.rekeyLifetime
      setSession fun s => { s with nextChildRekey := deadline }) (Returns h) := by
  refine Sim.session_bind ?_
  obtain ⟨t, d', hx, hs, hlog⟩ := jitteredDeadline_ok env d.s.childInstalledAt d.s.cfg.rekeyLifetime d
  unfold Sim Refines
  rw [Proc.bind_of_ok hx]
  refine ⟨h, ?_, rfl⟩
  change Relation.ReflTransGen _ _ (d'.view h)
  rw [Drive.view_congr hs hlog]

/-- What follows the installation of a Child SA we asked for. -/
theorem afterInstall_sim {ctx : ChildRekeyCtx} (hidle : d.s.pending = none)
    (hfree : h.opened = true → h.busy = true) :
    Sim c r d h (Proc.attempt (if ctx.reestablish then pure ()
        else if ctx.oldInSPI = ctx.newInSPI then pure ()
        else sendChildDelete c env ctx.oldInSPI : Drv Unit) >>= fun err =>
      match err with
      | some _ => pure ()
      | none => do
          let s ← session
          let deadline ← jitteredDeadline env s.childInstalledAt s.cfg.rekeyLifetime
          setSession fun s => { s with nextChildRekey := deadline }) (Returns h) := by
  have hdelete : Sim c r d h (if ctx.reestablish then pure ()
      else if ctx.oldInSPI = ctx.newInSPI then pure ()
      else sendChildDelete c env ctx.oldInSPI : Drv Unit) fun _ _ h' => h' = h := by
    split
    · exact Refines.pure rfl
    · split
      · exact Refines.pure rfl
      · exact (sendChildDelete_sim ctx.oldInSPI hidle hfree).weaken fun _ _ _ hQ => hQ.1
  refine hdelete.attempt_bind ?_ ?_
  · rintro _ d' h' rfl
    exact scheduleChildRekey_sim
  · rintro _ d' h' rfl
    exact Refines.pure rfl

/-- The response to a Child SA exchange of ours. -/
theorem completeMatchingChild_sim {x : Msg} {ctx : ChildRekeyCtx}
    (hreply : (d.view (.holding x)).Replies x (.childRekey ctx)) (hdp : d.s.dataPlane = true)
    (hlost : (∀ res, childRekeyResult c d.s.enabledESPSuites d.s.ikeSA ctx x.inner ≠ .ok res) →
      ctx.reestablish = true → d.s.childReestablish = false → r.lost) :
    Sim c r d (.holding x) (do
      setSession fun s => { s with pending := none }
      let err ← Proc.attempt (completeChildRekey c env x.inner x.msgID ctx)
      match err with
      | some _ => pure ()
      | none =>
          let s ← session
          let deadline ← jitteredDeadline env s.childInstalledAt s.cfg.rekeyLifetime
          setSession fun s => { s with nextChildRekey := deadline }) (Returns (.holding x)) := by
  cases hresult : childRekeyResult c d.s.enabledESPSuites d.s.ikeSA ctx x.inner with
  | error e =>
      refine Sim.setSession_bind (.holding x) (.single ?_) ?_
      · have hmove : Move c r (d.view (.holding x)) _ := Move.refused hreply fun hctx hflag =>
          hlost (fun res hres => by rw [hresult] at hres; cases hres) hctx
            (by simpa [Drive.view, Hand.holding] using hflag)
        exact hmove
      · have hfailed : Sim c r { d with s := { d.s with pending := none } } (.holding x)
            (completeChildRekey c env x.inner x.msgID ctx)
            fun res _ h' => (∃ text, res = .error text) ∧ h' = .holding x :=
          Refines.failed (.holding x) (completeChildRekey_failed hresult) .refl
            fun text _ => ⟨⟨text, rfl⟩, rfl⟩
        refine hfailed.attempt_bind ?_ ?_
        · rintro a d' h' ⟨⟨text, hres⟩, -⟩
          cases hres
        · rintro text d' h' ⟨-, rfl⟩
          exact Refines.pure rfl
  | ok res =>
      obtain ⟨respSPI, suite, keys⟩ := res
      have hmove : Move c r (d.view (.holding x)) _ := Move.complete hreply hresult
      have happly : completeChildRekey c env x.inner x.msgID ctx
          { d with s := { d.s with pending := none } } = _ := completeChildRekey_apply hdp hresult
      refine Refines.of_eq ((run_setSession_bind _ _ d).trans (Proc.attempt_bind_congr happly)) ?_
        (afterInstall_sim (h := .holding x) rfl fun hopened => by cases hopened)
      exact .single hmove

/-- The delete of the current IKE SA, if it can be encoded. -/
theorem sendIKEDeleteUnderCurrent_apply (c : Crypto) (env : Env) (d : Drive) :
    ∃ res d', sendIKEDeleteUnderCurrent c env d = (res, d') ∧
      ((∀ h, d'.view h = d.view h) ∨ ∃ ctx raw,
        ctx.keys = (d.view {}).ike ∧
        Seals c ctx exchangeInformational (ikeRoleBit ctx.sa.role) d.s.messageID
          [.delete { protocol := protocolIKE }] raw ∧
        ∀ h, d'.view h = ({ d.view h with messageID := d.s.messageID + 1 } : Machine).push
          [.requested d.s.messageID raw d.s.pending.isNone,
           .sealed .cur ctx exchangeInformational (ikeRoleBit ctx.sa.role) d.s.messageID
            [.delete { protocol := protocolIKE }] raw]) := by
  unfold sendIKEDeleteUnderCurrent
  rw [run_session_bind]
  have henc : Encoded c .cur exchangeInformational (ikeRoleBit d.s.ikeSA.role) d.s.messageID
      [.delete { protocol := protocolIKE }] d (encodeIn c env _ _ _ _ _ d) :=
    encoded_encodeIn .cur exchangeInformational (ikeRoleBit d.s.ikeSA.role) d.s.messageID _ d
  generalize hx : encodeIn c env .cur exchangeInformational (ikeRoleBit d.s.ikeSA.role) d.s.messageID
    [.delete { protocol := protocolIKE }] d = res at henc
  cases henc with
  | failed e d' n n' hs hlog =>
      exact ⟨_, d', Proc.bind_of_error hx, .inl fun h => Drive.view_of_withSeq hs hlog h⟩
  | done raw d' n n' ctx hctx hraw hs hlog =>
      cases hctx
      refine ⟨_, _, (Proc.bind_of_ok hx).trans ((run_noteRequest_bind _ _ _ d').trans
        (run_setSession_bind _ _ _)), .inr ⟨_, raw, rfl, hraw, ?_⟩⟩
      intro h
      simp only [Drive.view, hs, hlog, Session.withSeq, Machine.push, Option.map_map]
      rfl

/-- The delete of the current IKE SA, as a run of the machine in which the exchange
that supersedes it is still outstanding. -/
theorem sendIKEDeleteUnderCurrent_run (c : Crypto) (env : Env) (r : Rules) (d : Drive) (h : Hand) :
    ∃ res d' m, sendIKEDeleteUnderCurrent c env { d with s := { d.s with pending := none } } =
        (res, d') ∧
      Relation.ReflTransGen (Move c r) (d.view h) m ∧ m.msg = h.msg ∧
      m.opened = h.opened ∧ m.busy = h.busy ∧ m.pending = (d.view h).pending ∧ m.reestablish = (d.view h).reestablish ∧
      m.cfg = d.s.cfg ∧ m.ike = (d.view h).ike ∧
      ∀ h', d'.view h' = { m with
        pending := none, msg := h'.msg, opened := h'.opened, busy := h'.busy
        reestablish := d.s.childReestablish || h'.owed } := by
  obtain ⟨res, d', hx, hview | ⟨ctx, raw, hctx, hraw, hview⟩⟩ :=
    sendIKEDeleteUnderCurrent_apply c env { d with s := { d.s with pending := none } }
  · exact ⟨res, d', d.view h, hx, .refl, rfl, rfl, rfl, rfl, rfl, rfl, rfl, hview⟩
  · have hmove : Move c r (d.view h) _ := Move.notice true nofun hctx hraw
    exact ⟨res, d', _, hx, .single hmove, rfl, rfl, rfl, rfl, rfl, rfl, rfl, hview⟩

theorem completeIKERekey_failed {inner : Payloads} {msgID : UInt32} {ctx : IkeRekeyCtx} {e : Fault}
    (hresult : ikeRekeyResult c d.s.enabledIKESuites d.s.ikeSA.skd ctx inner = .error e) :
    completeIKERekey c env inner msgID ctx d = (.error e, d) := by
  have hlift : Proc.lift (ikeRekeyResult c d.s.enabledIKESuites d.s.ikeSA.skd ctx inner) d =
      (.error e, d) := by
    rw [hresult]
    rfl
  rw [completeIKERekey, run_session_bind, Proc.bind_of_error hlift]

theorem completeIKERekey_apply {inner : Payloads} {msgID : UInt32} {ctx : IkeRekeyCtx}
    {newSPIr : UInt64} {newIKE : IKESA}
    (hresult : ikeRekeyResult c d.s.enabledIKESuites d.s.ikeSA.skd ctx inner = .ok (newSPIr, newIKE)) :
    completeIKERekey c env inner msgID ctx d =
      (Proc.attempt (sendIKEDeleteUnderCurrent c env) >>= fun _ =>
        emit (.cutover .initiator msgID { sa := newIKE, spii := ctx.newSPIi, spir := newSPIr }) >>=
          fun _ => swapIKE env newIKE ctx.newSPIi newSPIr) d := by
  have hlift : Proc.lift (ikeRekeyResult c d.s.enabledIKESuites d.s.ikeSA.skd ctx inner) d =
      (.ok (newSPIr, newIKE), d) := by
    rw [hresult]
    rfl
  rw [completeIKERekey, run_session_bind, Proc.bind_of_ok hlift]

/-- A completed IKE SA exchange of ours. -/
theorem completeIKERekey_done {inner : Payloads} {ctx : IkeRekeyCtx} {newSPIr : UInt64}
    {newIKE : IKESA} {res : Go Unit} {d₁ : Drive} (msgID : UInt32)
    (hx : sendIKEDeleteUnderCurrent c env d = (res, d₁)) (hsafe : Safe res)
    (hresult : ikeRekeyResult c d.s.enabledIKESuites d.s.ikeSA.skd ctx inner = .ok (newSPIr, newIKE)) :
    ∃ d₂, completeIKERekey c env inner msgID ctx d = (.ok (), d₂) ∧ ∀ h, d₂.view h =
      ((d₁.view h).swap { sa := newIKE, spii := ctx.newSPIi, spir := newSPIr }).push
        [.cutover .initiator msgID { sa := newIKE, spii := ctx.newSPIi, spir := newSPIr }] := by
  obtain ⟨d₂, hswap, hview⟩ := swapIKE_apply env newIKE ctx.newSPIi newSPIr { d₁ with
    log := .cutover .initiator msgID { sa := newIKE, spii := ctx.newSPIi, spir := newSPIr } :: d₁.log }
  obtain ⟨o, hgo⟩ := Proc.attempt_bind_of_safe (f := fun _ =>
    emit (.cutover .initiator msgID { sa := newIKE, spii := ctx.newSPIi, spir := newSPIr }) >>=
      fun _ => swapIKE env newIKE ctx.newSPIi newSPIr) hx hsafe
  refine ⟨d₂, ?_, hview⟩
  rw [completeIKERekey_apply hresult, hgo, run_emit_bind, hswap]

theorem completeIKERekey_fault {inner : Payloads} {ctx : IkeRekeyCtx} {newSPIr : UInt64}
    {newIKE : IKESA} {res : Go Unit} {d₁ : Drive} (msgID : UInt32)
    (hx : sendIKEDeleteUnderCurrent c env d = (res, d₁)) (hsafe : ¬ Safe res)
    (hresult : ikeRekeyResult c d.s.enabledIKESuites d.s.ikeSA.skd ctx inner = .ok (newSPIr, newIKE)) :
    ∃ e, (∀ text, e ≠ .err text) ∧ completeIKERekey c env inner msgID ctx d = (.error e, d₁) := by
  obtain ⟨e, he, hgo⟩ := Proc.attempt_bind_of_fault (f := fun _ =>
    emit (.cutover .initiator msgID { sa := newIKE, spii := ctx.newSPIi, spir := newSPIr }) >>=
      fun _ => swapIKE env newIKE ctx.newSPIi newSPIr) hx hsafe
  exact ⟨e, he, by rw [completeIKERekey_apply hresult, hgo]⟩

/-- The response to an IKE SA exchange of ours. -/
theorem completeMatchingIKE_sim {x : Msg} {ctx : IkeRekeyCtx}
    (hreply : (d.view (.holding x)).Replies x (.ikeRekey ctx)) :
    Sim c r d (.holding x) (do
      setSession fun s => { s with pending := none }
      let _ ← Proc.attempt (completeIKERekey c env x.inner x.msgID ctx)
      pure ()) fun _ _ h' => h'.Settled := by
  cases hresult : ikeRekeyResult c d.s.enabledIKESuites d.s.ikeSA.skd ctx x.inner with
  | error e =>
      refine Sim.setSession_bind (.holding x) (.single ?_) ?_
      · have hmove : Move c r (d.view (.holding x)) _ := Move.drop hreply.opened hreply.pending (by simp)
        exact hmove
      · refine Refines.attempt_bind (Q := fun _ _ h' => h'.Settled) ?_ (fun _ _ _ hQ => .pure hQ)
          fun _ _ _ hQ => .pure hQ
        exact Refines.failed (.holding x) (completeIKERekey_failed hresult) .refl
          fun _ _ => Hand.settled_holding x
  | ok res =>
      obtain ⟨newSPIr, newIKE⟩ := res
      obtain ⟨res, d₁, m, hx, hrun, hmsg, hopened, hbusy, hpending, hflag, hcfg, hike, hview⟩ :=
        sendIKEDeleteUnderCurrent_run c env r d (.holding x)
      have hreply' : m.Replies x (.ikeRekey ctx) :=
        ⟨hmsg, hopened, hreply.slot, hreply.exchange, hreply.response, hpending.trans hreply.pending⟩
      unfold Sim Refines
      rw [run_setSession_bind]
      by_cases hsafe : Safe res
      · obtain ⟨d₂, hdone, hview₂⟩ := completeIKERekey_done x.msgID hx hsafe hresult
        obtain ⟨o, hgo⟩ := Proc.attempt_bind_of_safe (f := fun _ => (pure () : Drv Unit)) hdone
          (Safe.ok ())
        rw [hgo]
        refine ⟨{}, hrun.tail ?_, ⟨rfl, rfl, rfl⟩⟩
        have hmove : Move c r m _ := Move.completeIKE hreply' (by
          rw [Machine.ikeSuites, hcfg, hike]
          exact hresult)
        change Move c r m (d₂.view {})
        rw [hview₂, hview]
        convert hmove using 1
        simp only [Machine.swap, Machine.push, hopened, hbusy, hflag]
        rfl
      · obtain ⟨e, he, hfault⟩ := completeIKERekey_fault x.msgID hx hsafe hresult
        obtain ⟨e', he', hgo⟩ := Proc.attempt_bind_of_fault (f := fun _ => (pure () : Drv Unit)) hfault
          fun hs => (hs e rfl).elim he
        have hmove : Move c r m _ := Move.drop hreply'.opened hreply'.pending (by simp)
        rw [hgo]
        refine ⟨.holding x, hrun.tail ?_, ?_⟩
        · rw [hview]
          convert hmove using 1
          simp only [hmsg, hopened, hbusy, hflag]
          rfl
        · cases e' with
          | err text => exact absurd rfl (he' text)
          | panic => trivial
          | diverge => trivial

/-- The response ends the replacement of a deleted Child SA and cannot be used, and
nothing else remembers that the Child SA is gone. -/
structure Losing (c : Crypto) (s : Session) (x : Msg) (ctx : ChildRekeyCtx) : Prop where
  slot : x.slot = .cur
  exchange : x.exchange = exchangeCreateChildSA
  response : x.flags.isResponse = true
  pending : ∃ p, s.pending = some p ∧ p.msgID = x.msgID ∧ p.kind = .childRekey ctx
  reestablish : ctx.reestablish = true
  flag : s.childReestablish = false
  unusable : ∀ res, childRekeyResult c s.enabledESPSuites s.ikeSA ctx x.inner ≠ .ok res

/-- The request asks for a Child SA and is accepted, while the replacement of the last
one is still due. -/
structure Staling (s : Session) (x : Msg) : Prop where
  exchange : x.exchange = exchangeCreateChildSA
  request : x.flags.isResponse = false
  fresh : ¬ (s.dedup x.slot).covers x.msgID
  idle : (s.pending.any fun p => p.kind.isRekey) = false
  child : isIKERekey x.inner = false
  acceptable : s.acceptable x.inner = true
  flag : s.childReestablish = true

theorem completeMatchingRekey_sim {x : Msg} (hexchange : x.exchange = exchangeCreateChildSA)
    (hresp : x.flags.isResponse = true) (hdp : d.s.dataPlane = true)
    (hlost : ∀ ctx, Losing c d.s x ctx → r.lost) :
    Sim c r d (.holding x) (completeMatchingRekey c env x.msgID x.inner x.slot)
      fun _ _ h' => h'.Settled := by
  have hkept := Hand.settled_holding x
  unfold completeMatchingRekey
  cases hslot : x.slot with
  | old => exact Refines.pure hkept
  | cur =>
      refine Sim.session_bind ?_
      cases hp : d.s.pending with
      | none => exact Refines.pure hkept
      | some p =>
          dsimp only
          by_cases hid : p.msgID = x.msgID
          · rw [if_neg (not_not.mpr hid), hid]
            have hreply := Drive.replies hslot hexchange hresp hp hid
            cases hkind : p.kind with
            | dpd => exact Refines.pure hkept
            | delete => exact Refines.pure hkept
            | childRekey ctx =>
                rw [hkind] at hreply
                refine (completeMatchingChild_sim hreply hdp fun hres hctx hflag =>
                  hlost ctx ⟨hslot, hexchange, hresp, ⟨p, hp, hid, hkind⟩, hctx, hflag, hres⟩).weaken ?_
                rintro (text | ⟨⟩) d' h' hQ
                · exact hQ.elim
                · exact hQ ▸ hkept
            | ikeRekey ctx =>
                rw [hkind] at hreply
                exact completeMatchingIKE_sim hreply
          · rw [if_pos hid]
            exact Refines.pure hkept

theorem clearPending_sim (msgID : UInt32) (hopened : h.opened = false) :
    Sim c r d h (clearPending msgID) (Returns h) := by
  refine Sim.setSession h ?_ rfl
  cases hp : d.s.pending with
  | none => exact .refl
  | some p =>
      dsimp only
      split
      · rename_i hcond
        have hpending : (d.view h).pending = some (p.msgID, p.kind) := by
          simp only [Drive.view, hp, Option.map_some]
        have hmove : Move c r (d.view h) _ := Move.drop hopened hpending fun ctx hctx => by
          rw [hctx] at hcond
          cases hcond.2
        exact .single hmove
      · exact .refl

theorem clearOldIKEDelete_sim (msgID : UInt32) :
    Sim c r d h (clearOldIKEDelete msgID) (Returns h) := by
  refine Sim.setSession h ?_ rfl
  cases hp : d.s.oldIKEDelete with
  | none => exact .refl
  | some p =>
      dsimp only
      split
      · exact .refl
      · exact .refl

/-! ## A message of the peer -/

theorem Drive.view_dedup (slot : Slot) : (d.view h).dedup slot = d.s.dedup slot := by
  cases slot <;> rfl

/-- A request that has been answered is answered from the cache, or dropped. -/
theorem dedupPeerRequest_covered {msgID : UInt32} {slot : Slot}
    (hcovers : (d.s.dedup slot).covers msgID) : dedupPeerRequest env msgID slot d =
      (.ok true, { d with
        sent := if msgID = (d.s.dedup slot).msgID then d.s.frame (d.s.dedup slot).resp :: d.sent
                else d.sent }) := by
  unfold PeerDedup.covers at hcovers
  rw [dedupPeerRequest, run_session_bind, if_pos hcovers]
  by_cases hlast : msgID = (d.s.dedup slot).msgID
  · rw [if_pos hlast, if_pos hlast]
    obtain ⟨o, hgo⟩ := run_attempt_sendDatagram_bind env (d.s.dedup slot).resp
      (fun _ => (pure true : Drv Bool)) d
    rw [hgo]
    rfl
  · rw [if_neg hlast, if_neg hlast]
    rfl

theorem takeUp_covered {msgID : UInt32} {slot : Slot} (process : Drv Bool)
    (hcovers : (d.s.dedup slot).covers msgID) : takeUp env msgID slot process d =
      (.ok false, { d with
        sent := if msgID = (d.s.dedup slot).msgID then d.s.frame (d.s.dedup slot).resp :: d.sent
                else d.sent }) := by
  rw [takeUp, Proc.bind_of_ok (dedupPeerRequest_covered hcovers)]
  rfl

theorem dedupPeerRequest_fresh {msgID : UInt32} {slot : Slot}
    (hfresh : ¬ (d.s.dedup slot).covers msgID) :
    dedupPeerRequest env msgID slot d = (.ok false, d) := by
  unfold PeerDedup.covers at hfresh
  rw [dedupPeerRequest, run_session_bind, if_neg hfresh]
  rfl

theorem takeUp_sim {x : Msg} {process : Drv Bool} (hreq : x.flags.isResponse = false)
    (hprocess : ¬ (d.s.dedup x.slot).covers x.msgID →
      Sim c r { d with log := .handling x.slot x.msgID :: d.log } (.serving x) process Processed) :
    Sim c r d (.holding x) (takeUp env x.msgID x.slot process) fun _ _ h' => h'.Settled := by
  by_cases hcovers : (d.s.dedup x.slot).covers x.msgID
  · exact Refines.of_eq (takeUp_covered process hcovers) .refl
      (Refines.pure (Hand.settled_holding x))
  · have hrest := Refines.bind (hprocess hcovers) (f := fun teardown => do
      emit .handled
      return teardown) (R := fun _ _ h' => h'.Settled) ?_ fun _ _ _ hQ => hQ.elim
    · refine Refines.of_eq ?_ (.single ?_) hrest
      · rw [takeUp, Proc.bind_of_ok (dedupPeerRequest_fresh hcovers)]
        rfl
      · have hmove : Move c r (d.view (.holding x)) _ := Move.takeUp rfl hreq rfl
          (by rwa [Drive.view_dedup])
        exact hmove
    · intro teardown d' h' hQ
      refine Sim.emit_bind { msg := h'.msg } (.single ?_) (Refines.pure ⟨rfl, rfl, rfl⟩)
      have hmove : Move c r (d'.view h') _ := Move.handled hQ.2
      convert hmove using 1
      simp only [Drive.view, Machine.push, hQ.1]
      rfl

/-- What a turn of the loop may be asked to take in. -/
structure Admits (c : Crypto) (r : Rules) (d : Drive) (x : Msg) : Prop where
  recv : r.recv (d.view {}) x
  lost : ∀ ctx, Losing c d.s x ctx → r.lost
  stale : Staling d.s x → r.stale

/-- A decoded message, as the machine sees it. -/
def Msg.decoded (hdr : Message) (inner : Payloads) (slot : Slot) : Msg :=
  { slot, exchange := hdr.exchange, flags := hdr.flags, msgID := hdr.messageID, inner }

theorem dispatch_sim {hdr : Message} {inner : Payloads} {slot : Slot} (hdp : d.s.dataPlane = true)
    (hlost : ∀ ctx, Losing c d.s (.decoded hdr inner slot) ctx → r.lost)
    (hstale : Staling d.s (.decoded hdr inner slot) → r.stale) :
    Sim c r d (.holding (.decoded hdr inner slot)) (dispatch c env hdr inner slot)
      fun _ _ h' => h'.Settled := by
  have hkept := Hand.settled_holding (.decoded hdr inner slot)
  unfold dispatch
  dsimp only
  by_cases hinfo : hdr.exchange = exchangeInformational
  · rw [if_pos hinfo]
    by_cases hresp : hdr.flags.isResponse = true
    · rw [if_pos hresp]
      cases slot with
      | old =>
          refine (clearOldIKEDelete_sim hdr.messageID).bind ?_ fun _ _ _ hQ => hQ.elim
          rintro ⟨⟩ d' h' rfl
          exact Refines.pure hkept
      | cur =>
          refine (clearPending_sim hdr.messageID rfl).bind ?_ fun _ _ _ hQ => hQ.elim
          rintro ⟨⟩ d' h' rfl
          exact Refines.pure hkept
    · rw [if_neg hresp]
      have hreq : (Msg.decoded hdr inner slot).flags.isResponse = false := Bool.eq_false_iff.mpr hresp
      refine takeUp_sim hreq fun _ => ?_
      refine (handleInformationalRequest_sim hreq hinfo).bind ?_ fun _ _ _ hQ => hQ.elim
      intro teardown d' h' hQ
      split
      · refine Sim.emit_bind h' (.single Move.dead) (Refines.pure ⟨hQ.1, fun hb => ?_⟩)
        exact List.mem_cons_of_mem _ (hQ.2 hb)
      · exact Refines.pure hQ
  · rw [if_neg hinfo]
    by_cases hcreate : hdr.exchange = exchangeCreateChildSA
    · rw [if_pos hcreate]
      by_cases hresp : hdr.flags.isResponse = true
      · rw [if_pos hresp]
        have hcomplete : Sim c r d (.holding (.decoded hdr inner slot))
            (completeMatchingRekey c env hdr.messageID inner slot) fun _ _ h' => h'.Settled :=
          completeMatchingRekey_sim hcreate hresp hdp hlost
        exact hcomplete.bind (fun _ _ _ hQ => .pure hQ) fun _ _ _ hQ => hQ
      · rw [if_neg hresp]
        have hreq : (Msg.decoded hdr inner slot).flags.isResponse = false :=
          Bool.eq_false_iff.mpr hresp
        refine takeUp_sim hreq fun hfresh => ?_
        refine Refines.bind (Q := Processed) ?_ (fun _ _ _ hQ => .pure hQ) fun _ _ _ hQ => hQ.elim
        refine handleCreateChildSA_sim hreq hcreate hdp fun hpending hike haccept hflag =>
          hstale ⟨hcreate, hreq, hfresh, ?_, hike, haccept, hflag⟩
        simpa [Machine.rekeying, Drive.view, Option.any_map] using hpending
    · rw [if_neg hcreate]
      exact Refines.pure hkept

/-- The message in hand is done with. -/
theorem Hand.Settled.finish {d' : Drive} {h' : Hand} (hset : h'.Settled) :
    Relation.ReflTransGen (Move c r) (d'.view h') (d'.view {}) := by
  have hmove : Move c r (d'.view h') _ := Move.finish hset.opened
  refine .single ?_
  convert hmove using 1
  simp only [Drive.view, hset.owed, hset.opened, hset.busy]

theorem handleInbound_sim {raw : Bytes} (hdp : d.s.dataPlane = true)
    (hadmits : ∀ hdr inner slot, d.s.decodeIKE c env raw = .ok (hdr, inner, slot) →
      Admits c r d (.decoded hdr inner slot)) :
    Sim c r d {} (handleInbound c env raw) fun _ _ h' => h' = {} := by
  refine Sim.session_bind ?_
  cases hdecode : d.s.decodeIKE c env raw with
  | error e =>
      cases e with
      | err text => exact Refines.pure rfl
      | panic => exact Refines.lift trivial
      | diverge => exact Refines.lift trivial
  | ok res =>
      obtain ⟨hdr, inner, slot⟩ := res
      have hadmit := hadmits hdr inner slot hdecode
      dsimp only
      refine Sim.setSession_bind (.holding (.decoded hdr inner slot)) (.single ?_) ?_
      · have hmove : Move c r (d.view {}) _ := Move.receive _ hadmit.recv rfl
        exact hmove
      · refine Refines.settle (Q := fun _ _ h' => h'.Settled) (dispatch_sim ?_ ?_ ?_) fun _ _ _ hQ =>
          ⟨{}, hQ.finish, rfl⟩
        · exact hdp
        · intro ctx hl
          exact hadmit.lost ctx ⟨hl.slot, hl.exchange, hl.response, hl.pending, hl.reestablish,
            hl.flag, hl.unusable⟩
        · intro hs
          exact hadmit.stale ⟨hs.exchange, hs.request, hs.fresh, hs.idle, hs.child, hs.acceptable,
            hs.flag⟩

/-! ## Timers -/

/-- A change of the session that the machine does not see, in front of a call. -/
theorem Sim.unseen_bind {β : Type} {g : Session → Session} {f : Unit → Drv β}
    {Q : Except String β → Drive → Hand → Prop}
    (hview : Drive.view { d with s := g d.s } h = d.view h)
    (hf : Sim c r { d with s := g d.s } h (f ()) Q) :
    Sim c r d h (Session.setSession g >>= f) Q := by
  refine Sim.setSession_bind h ?_ hf
  rw [hview]

/-- A request of ours whose error is only logged. -/
theorem Sim.request_ignored {x : Drv Unit} {kind : ExchangeKind → Prop}
    (hx : Sim c r d h x (Requested kind h)) :
    Sim c r d h (Proc.attempt x >>= fun _ => (pure () : Drv Unit)) (Returns h) :=
  hx.attempt_bind (fun _ _ _ hQ => .pure hQ.1) fun _ _ _ hQ => .pure hQ.1

theorem detectSuspend_sim (now : Time) : Sim c r d {} (detectSuspend c env now) (Returns {}) := by
  refine Sim.session_bind (Sim.unseen_bind rfl ?_)
  split
  · exact Refines.pure rfl
  · refine Sim.session_bind ?_
    cases hp : d.s.pending with
    | none => exact Sim.request_ignored (initiateDPD_sim true rfl nofun)
    | some p =>
        refine Sim.unseen_bind ?_ ?_
        · simp only [Drive.view, Option.map_some]
        · split
          · exact Refines.pure rfl
          · exact Sim.setSession {} .refl rfl

theorem expireOldIKE_sim (now : Time) : Sim c r d {} (expireOldIKE now) (Returns {}) := by
  refine Sim.setSession {} ?_ rfl
  split
  · have hmove : Move c r (d.view {}) _ := Move.expire rfl
    exact .single hmove
  · exact .refl

theorem retransmitOldIKEDelete_sim (now : Time) :
    Sim c r d h (retransmitOldIKEDelete env now) (Returns h) := by
  refine Sim.session_bind ?_
  cases d.s.oldIKEDelete with
  | none => exact Refines.pure rfl
  | some p =>
      dsimp only
      split
      · exact Sim.setSession h .refl rfl
      · split
        · split
          · exact Sim.setSession h .refl rfl
          · refine Sim.unseen_bind rfl (Sim.emit_bind h (.single (Move.resent _ _ _)) ?_)
            exact Sim.send_ignored fun _ _ => rfl
        · exact Refines.pure rfl

/-- The state after the outstanding exchange is given up. -/
theorem abandon_run {p : PendingExchange} (next : Time) (hp : d.s.pending = some p)
    (hopened : h.opened = false) (howed : h.owed = false) :
    Relation.ReflTransGen (Move c r) (d.view h) (Drive.view { d with
      s := if p.kind.reestablishes then
          { d.s with pending := none, childReestablish := true, nextChildReestablish := next }
        else { d.s with pending := none } } h) := by
  have hpending : (d.view h).pending = some (p.msgID, p.kind) := by
    simp only [Drive.view, hp, Option.map_some]
  refine .single ?_
  cases hkind : p.kind with
  | childRekey ctx =>
      rw [hkind] at hpending
      have hmove : Move c r (d.view h) _ := Move.abandon hopened hpending
      convert hmove using 1
      cases hctx : ctx.reestablish <;>
        simp [ExchangeKind.reestablishes, hctx, Drive.view, howed]
  | dpd =>
      have hmove : Move c r (d.view h) _ := Move.drop hopened hpending (by simp [hkind])
      exact hmove
  | delete =>
      have hmove : Move c r (d.view h) _ := Move.drop hopened hpending (by simp [hkind])
      exact hmove
  | ikeRekey ctx =>
      have hmove : Move c r (d.view h) _ := Move.drop hopened hpending (by simp [hkind])
      exact hmove

theorem retransmitPending_sim {now : Time} {p : PendingExchange} (hp : d.s.pending = some p) :
    Sim c r d {} (retransmitPending env now p) (Returns {}) := by
  unfold retransmitPending
  split
  · refine Sim.session_bind ?_
    dsimp only
    split
    · have hrun : Relation.ReflTransGen (Move c r) (d.view {}) _ :=
        abandon_run (now.add rekeyRetryInterval) hp rfl rfl
      cases hkind : p.kind with
      | dpd =>
          rw [hkind] at hrun
          refine Sim.setSession_bind {} hrun ?_
          exact Sim.emit_bind {} (.single Move.dead) (Refines.pure rfl)
      | _ =>
          rw [hkind] at hrun
          refine Refines.of_eq ((run_setSession_bind _ _ d).trans (run_setSession_bind _ _ _)) ?_
            (Refines.pure rfl)
          exact hrun
    · refine Sim.unseen_bind ?_ ?_
      · simp only [Drive.view, hp, Option.map_some]
      · refine Sim.emit_bind {} (.single (Move.resent _ _ _)) ?_
        exact Sim.send_ignored fun _ _ => rfl
  · exact Refines.pure rfl

theorem startExchange_sim (now : Time) (hidle : d.s.pending = none) :
    Sim c r d {} (startExchange c env now) (Returns {}) := by
  unfold startExchange
  refine Sim.session_bind ?_
  split
  · refine Sim.unseen_bind rfl ?_
    exact Sim.request_ignored (initiateDPD_sim true hidle nofun)
  split
  · rename_i hdue
    exact reestablish_sim {} hidle (by simp [Drive.view, hdue.1]) nofun rfl rfl rfl rfl fun _ => rfl
  split
  · rename_i hvolume
    refine Sim.unseen_bind rfl ?_
    exact Sim.request_ignored (initiateChildRekey_sim hidle nofun (by simp [Drive.view, hvolume.2.1]))
  split
  · refine Sim.unseen_bind rfl ?_
    exact Sim.request_ignored (initiateIKERekey_sim hidle nofun)
  split
  · rename_i hlifetime
    refine Sim.unseen_bind rfl ?_
    exact Sim.request_ignored
      (initiateChildRekey_sim hidle nofun (by simp [Drive.view, hlifetime.2.2.1]))
  split
  · exact Sim.request_ignored (initiateDPD_sim false hidle nofun)
  · exact Refines.pure rfl

theorem housekeeping_sim : Sim c r d {} (housekeeping c env) (Returns {}) := by
  unfold housekeeping
  refine (detectSuspend_sim _).bind ?_ fun _ _ _ hQ => hQ.elim
  rintro ⟨⟩ d₁ h₁ rfl
  refine (expireOldIKE_sim _).bind ?_ fun _ _ _ hQ => hQ.elim
  rintro ⟨⟩ d₂ h₂ rfl
  refine (retransmitOldIKEDelete_sim _).bind ?_ fun _ _ _ hQ => hQ.elim
  rintro ⟨⟩ d₃ h₃ rfl
  refine Sim.session_bind ?_
  cases hp : d₃.s.pending with
  | some p => exact retransmitPending_sim hp
  | none =>
      refine (startExchange_sim _ hp).bind ?_ fun _ _ _ hQ => hQ.elim
      rintro ⟨⟩ d₄ h₄ rfl
      exact Refines.pure rfl

/-! ## The loop -/

theorem sendGracefulDelete_sim (hclosing : r.closing) :
    Sim c r d h (sendGracefulDelete c env) fun _ _ h' => h' = h := by
  unfold sendGracefulDelete
  refine Sim.session_bind ?_
  have henc : Encoded c .cur exchangeInformational (ikeRoleBit d.s.ikeSA.role) d.s.messageID
      [.delete { protocol := protocolIKE }] d (encodeIn c env _ _ _ _ _ d) :=
    encoded_encodeIn .cur exchangeInformational (ikeRoleBit d.s.ikeSA.role) d.s.messageID _ d
  generalize hx : encodeIn c env .cur exchangeInformational (ikeRoleBit d.s.ikeSA.role) d.s.messageID
    [.delete { protocol := protocolIKE }] d = res at henc
  cases henc with
  | failed e d' n n' hs hlog =>
      refine Refines.failed h (Proc.bind_of_error hx) ?_ fun _ _ => rfl
      rw [Drive.view_of_withSeq hs hlog]
  | done raw d' n n' ctx hctx hraw hs hlog =>
      cases hctx
      have hmove : Move c r (d.view h) _ :=
        Move.notice d.s.pending.isNone (fun _ => hclosing) rfl hraw
      refine Refines.of_eq ((Proc.bind_of_ok hx).trans ((run_noteRequest_bind _ _ _ d').trans
        (run_setSession_bind _ _ _))) (.single ?_)
        ((Silent.sendDatagram raw).sim.weaken fun _ _ _ hQ => hQ.1.hand)
      convert hmove using 1
      simp only [Drive.view, hs, hlog, Session.withSeq, Machine.push, Option.map_map]
      rfl

/-- What the input of a turn may be. -/
def Input.Admitted (c : Crypto) (env : Env) (r : Rules) (d : Drive) : Input → Prop
  | .datagram raw => ∀ hdr inner slot, d.s.decodeIKE c env raw = .ok (hdr, inner, slot) →
      Admits c r d (.decoded hdr inner slot)
  | .tick => True
  | .done => r.closing

/-- Every turn of the loop is a run of the machine. -/
theorem driverStep_sim {input : Input} (hdp : d.s.dataPlane = true)
    (hadmitted : input.Admitted c env r d) :
    Sim c r d {} (driverStep c env input) fun _ _ h' => h' = {} := by
  cases input with
  | datagram raw => exact handleInbound_sim hdp hadmitted
  | tick =>
      refine housekeeping_sim.weaken ?_
      rintro (text | a) d' h' hQ
      · exact hQ.elim
      · exact hQ
  | done =>
      exact (sendGracefulDelete_sim hadmitted).attempt_bind (fun _ _ _ hQ => .pure hQ) fun _ _ _ hQ => .pure hQ

end

end GoIpsec.Session
