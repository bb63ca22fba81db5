import GoIpsec.Session.Datagrams
import GoIpsec.Session.Responder

/-!
# The headers of protected messages

The sites that send a protected message build its header from the session or from the
context a request was decoded under.  Here it is shown that after any cutovers, by either
end, they agree: the SPIs are those of the SA whose keys protect the message, the Initiator
flag tells our role on that SA, and the Response flag tells an answer to a request of the
peer from a request of ours.

The flags follow from what a message was encoded for (`Machine.Addressed`).
-/

set_option linter.dupNamespace false

namespace GoIpsec.Session

open Golang Ikemsg Ikesa

theorem isInitiator_ikeRoleBit (role : Role) :
    (ikeRoleBit role).isInitiator = true ↔ role = .initiator := by
  cases role <;> decide

theorem isInitiator_answerFlags (ctx : IkeCtx) :
    (answerFlags ctx).isInitiator = true ↔ ctx.sa.role = .initiator := by
  unfold answerFlags
  cases ctx.sa.role <;> decide

/-- The header of an encoded message. -/
theorem Seals.parse {c : Crypto} {ctx : IkeCtx} {exchange : ExchangeType} {flags : Flags}
    {msgID : UInt32} {inner : Payloads} {raw : Bytes} (hctx : ctx.Proper)
    (h : Seals c ctx exchange flags msgID inner raw) :
    ∃ hdr, Ikemsg.parse raw = .ok hdr ∧ hdr.initiatorSPI = ctx.sa.initiatorSPI ∧
      hdr.responderSPI = ctx.sa.responderSPI ∧ hdr.flags = flags ∧ hdr.messageID = msgID := by
  obtain ⟨rand, sa', henc⟩ := h
  obtain ⟨pt, iv, pad, -, -, -, -, n, hn, hlen, rfl⟩ := encodeSKWith_eq_ok hctx.wf henc
  generalize ctx.sa.sealBody c _ iv (pt ++ (pad ++ [UInt8.ofNat pad.length])) = body at hlen
  subst hlen
  exact ⟨_, parse_skPrefix _ _ hn, hctx.initiatorSPI.symm, hctx.responderSPI.symm, rfl, rfl⟩

/-! ## What a message was encoded for -/

/-- The message is a request of ours, or it was given as the response to a request of the
peer with its Message ID and under its IKE SA. -/
def Encoding.Told (q : Encoding) (log : List Event) : Prop :=
  q.flags = ikeRoleBit q.ctx.sa.role ∨
    q.flags = answerFlags q.ctx ∧ ((q.sa, q.msgID), q.raw) ∈ answers log

structure Machine.Addressed (m : Machine) : Prop where
  encodings : ∀ q ∈ encodings m.log, q.Told m.log
  answers : ∀ a ∈ answers m.log, a.1 ∈ takenUp m.log ∧
    ∃ q ∈ Session.encodings m.log, q.raw = a.2 ∧ q.flags = answerFlags q.ctx
  serves : m.busy = true → m.opened = true ∧
    ∃ x, m.msg = some x ∧ ((lineage m.log).at x.slot, x.msgID) ∈ takenUp m.log

section

variable {c : Crypto} {r : Rules} {m m' : Machine}

theorem Encoding.Told.mono {q : Encoding} {log log' : List Event} (h : q.Told log)
    (hlog : Session.answers log ⊆ Session.answers log') : q.Told log' :=
  h.imp_right fun ⟨hflags, hmem⟩ => ⟨hflags, hlog hmem⟩

/-- Events that tell nothing of the messages. -/
def Event.isAside : Event → Bool
  | .sealed _ _ _ _ _ _ _ => false
  | .answered _ _ _ => false
  | .handling _ _ => false
  | .cutover _ _ _ => false
  | _ => true

theorem takenUp_cons {e : Event} (he : ∀ slot msgID, e ≠ .handling slot msgID) (log : List Event) :
    takenUp (e :: log) = takenUp log := by
  have hcount : requests (e :: log) = requests log ∨ requests (e :: log) = bump (requests log) := by
    cases e with
    | handling slot msgID => exact absurd rfl (he slot msgID)
    | install | cutover | started =>
        rw [requests_effect rfl]
        split
        · exact .inr rfl
        · exact .inl rfl
    | _ => exact .inl rfl
  unfold takenUp
  rcases hcount with h | h
  · rw [h]
  · rw [h, map_fst_bump]

namespace Machine.Addressed

/-- A move that logs nothing. -/
theorem keep (h : m.Addressed) (hlog : m'.log = m.log)
    (hserves : m'.busy = true → m.busy = true ∧ m'.opened = m.opened ∧ m'.msg = m.msg) :
    m'.Addressed := by
  obtain ⟨hencodings, hanswers, hbusy⟩ := h
  refine ⟨hlog ▸ hencodings, hlog ▸ hanswers, fun hb => ?_⟩
  obtain ⟨hb, hopened, hmsg⟩ := hserves hb
  rw [hopened, hmsg, hlog]
  exact hbusy hb

theorem aside (h : m.Addressed) {e : Event} (he : e.isAside = true) : (m.push [e]).Addressed := by
  have htaken : takenUp (e :: m.log) = takenUp m.log := by
    refine takenUp_cons (fun slot msgID heq => ?_) _
    subst heq
    cases he
  have hrest : Session.encodings (e :: m.log) = Session.encodings m.log ∧
      Session.answers (e :: m.log) = Session.answers m.log ∧
      lineage (e :: m.log) = lineage m.log := by
    cases e with
    | sealed | answered | handling | cutover => cases he
    | _ => exact ⟨rfl, rfl, rfl⟩
  obtain ⟨hencodings, hanswers, hlineage⟩ := hrest
  refine ⟨fun q hq => ?_, fun a ha => ?_, fun hb => ?_⟩
  · change q ∈ Session.encodings (e :: m.log) at hq
    rw [hencodings] at hq
    refine (h.encodings q hq).mono fun a ha => ?_
    change a ∈ Session.answers (e :: m.log)
    rwa [hanswers]
  · change a ∈ Session.answers (e :: m.log) at ha
    change a.1 ∈ takenUp (e :: m.log) ∧ ∃ q ∈ Session.encodings (e :: m.log), _
    rw [hanswers] at ha
    rw [htaken, hencodings]
    exact h.answers a ha
  · change m.opened = true ∧ ∃ x, m.msg = some x ∧ ((lineage (e :: m.log)).at x.slot, x.msgID) ∈
      takenUp (e :: m.log)
    rw [htaken, hlineage]
    exact h.serves hb

theorem takeUp (h : m.Addressed) {x : Msg} (hmsg : m.msg = some x) :
    (({ m with opened := true, busy := true } : Machine).push
      [.handling x.slot x.msgID]).Addressed where
  encodings := h.encodings
  answers a ha := (h.answers a ha).imp_left fun hmem => List.mem_cons_of_mem _ hmem
  serves _ := ⟨rfl, x, hmsg, List.mem_cons_self⟩

/-- A request of ours is encoded. -/
theorem request (h : m.Addressed) (slot : Slot) (ctx : IkeCtx) (exchange : ExchangeType)
    (msgID : UInt32) (inner : Payloads) (raw : Bytes) :
    (m.push [.sealed slot ctx exchange (ikeRoleBit ctx.sa.role) msgID inner raw]).Addressed where
  encodings q hq := by
    rcases List.mem_cons.mp hq with rfl | hq
    · exact .inl rfl
    · exact h.encodings q hq
  answers a ha := by
    obtain ⟨hmem, q, hq, hraw⟩ := h.answers a ha
    exact ⟨hmem, q, List.mem_cons_of_mem _ hq, hraw⟩
  serves := h.serves

/-- The request in hand is answered with a message `q`. -/
theorem answer (h : m.Addressed) {x : Msg} (hreq : m.Processes x) {q : Encoding}
    (hkey : (q.sa, q.msgID) = ((lineage m.log).at x.slot, x.msgID))
    (hflags : q.flags = answerFlags q.ctx)
    (hencodings : Session.encodings m'.log = q :: Session.encodings m.log)
    (hanswers : Session.answers m'.log = ((q.sa, q.msgID), q.raw) :: Session.answers m.log)
    (htaken : takenUp m'.log = takenUp m.log) (hbusy : m'.busy = false) : m'.Addressed where
  encodings q' hq' := by
    rw [hencodings] at hq'
    rcases List.mem_cons.mp hq' with rfl | hq'
    · refine .inr ⟨hflags, ?_⟩
      rw [hanswers]
      exact List.mem_cons_self
    · refine (h.encodings q' hq').mono ?_
      rw [hanswers]
      exact List.subset_cons_self _ _
  answers a ha := by
    rw [htaken, hencodings]
    rw [hanswers] at ha
    rcases List.mem_cons.mp ha with rfl | ha
    · obtain ⟨-, y, hy, hmem⟩ := h.serves hreq.busy
      cases hreq.msg.symm.trans hy
      exact ⟨hkey ▸ hmem, q, List.mem_cons_self, rfl, hflags⟩
    · obtain ⟨hmem, q', hq', hraw⟩ := h.answers a ha
      exact ⟨hmem, q', List.mem_cons_of_mem _ hq', hraw⟩
  serves hb := by cases hbusy.symm.trans hb

theorem cutover (h : m.Addressed) (hbusy : m.busy = false) (role : Role) (msgID : UInt32)
    (new : IkeCtx) : ((m.swap new).push [.cutover role msgID new]).Addressed := by
  have htaken : takenUp (.cutover role msgID new :: m.log) = takenUp m.log :=
    takenUp_cons (e := .cutover role msgID new) nofun _
  refine ⟨h.encodings, fun a ha => ?_, fun hb => ?_⟩
  · change a.1 ∈ takenUp (.cutover role msgID new :: m.log) ∧ _
    rw [htaken]
    exact h.answers a ha
  · cases hbusy.symm.trans hb

theorem move (h : m.Addressed) (hmove : Move c r m m') : m'.Addressed := by
  have hidle (hopened : m.opened = false) : m.busy ≠ true :=
    fun hb => by cases hopened.symm.trans (h.serves hb).1
  cases hmove with
  | receive x hrecv hopened => exact h.keep rfl fun hb => absurd hb (hidle hopened)
  | finish hopened => exact h.keep rfl fun hb => absurd hb (hidle hopened)
  | takeUp hmsg hreq hopened hfresh => exact h.takeUp hmsg
  | handled hbusy =>
      have hdone : ({ m with opened := false, busy := false } : Machine).Addressed :=
        h.keep rfl nofun
      exact hdone.aside rfl
  | unanswered => exact h.aside rfl
  | dead => exact h.aside rfl
  | resent slot msgID raw => exact h.aside rfl
  | @request kind exchange inner ctx raw hfree hopened hctx hasks hraw =>
      have hkept : ({ m with messageID := m.messageID + 1,
                             pending := some (m.messageID, kind) } : Machine).Addressed :=
        h.keep rfl fun hb => ⟨hb, rfl, rfl⟩
      have hrequest := (hkept.request .cur ctx exchange m.messageID inner raw).aside
        (e := .requested m.messageID raw true) rfl
      cases kind with
      | childRekey rctx => exact hrequest.aside (e := .started rctx.reestablish) rfl
      | dpd => exact hrequest
      | ikeRekey rctx => exact hrequest
      | delete => exact hrequest
  | @notice ctx raw idle hfree hctx hraw =>
      have hkept : ({ m with messageID := m.messageID + 1 } : Machine).Addressed :=
        h.keep rfl fun hb => ⟨hb, rfl, rfl⟩
      exact (hkept.request .cur ctx exchangeInformational m.messageID _ raw).aside
        (e := .requested m.messageID raw idle) rfl
  | drop hopened => exact h.keep rfl fun hb => ⟨hb, rfl, rfl⟩
  | abandon hopened => exact h.keep rfl fun hb => ⟨hb, rfl, rfl⟩
  | refused hreply => exact h.keep rfl fun hb => ⟨hb, rfl, rfl⟩
  | @complete x ctx respSPI suite keys hreply hresult =>
      have hkept : ({ m with
          pending := none, reestablish := false
          child := some { initiatorSPI := ctx.newInSPI, responderSPI := respSPI,
                          suite := suite.id, keys } } : Machine).Addressed :=
        h.keep rfl fun hb => ⟨hb, rfl, rfl⟩
      exact hkept.aside rfl
  | @completeIKE x ctx newSPIr newIKE hreply hresult =>
      have hkept : ({ m with msg := none } : Machine).Addressed :=
        h.keep rfl fun hb => absurd hb (hidle hreply.opened)
      exact hkept.cutover (Bool.eq_false_of_not_eq_true (hidle hreply.opened)) .initiator x.msgID _
  | @answer x ctx inner raw hreq hctx hinner hraw =>
      exact h.answer hreq (q := { sa := (lineage m.log).at x.slot, ctx, exchange := x.exchange,
                                  flags := answerFlags ctx, msgID := x.msgID, inner, raw })
        rfl rfl rfl rfl rfl rfl
  | @accept x ctx resp u raw hreq hexchange hctx hpending hstale haccept hraw =>
      exact h.answer hreq (q := { sa := (lineage m.log).at x.slot, ctx,
                                  exchange := exchangeCreateChildSA, flags := answerFlags ctx,
                                  msgID := x.msgID, inner := resp, raw })
        rfl rfl rfl rfl (takenUp_cons (e := .install .responder x.slot x.msgID u) nofun _) rfl
  | @acceptIKE x ctx new resp raw hreq hslot hexchange hctx hpending haccept hraw =>
      have hanswered : ((({ m with busy := false, msg := none } : Machine).record .cur x.msgID
          raw).push [.answered .cur x.msgID raw,
            .sealed .cur ctx exchangeCreateChildSA (answerFlags ctx) x.msgID resp raw]).Addressed :=
        h.answer hreq (q := { sa := lineage m.log, ctx, exchange := exchangeCreateChildSA,
                              flags := answerFlags ctx, msgID := x.msgID, inner := resp, raw })
          (by rw [hslot]; rfl) rfl rfl rfl rfl rfl
      exact hanswered.cutover rfl .responder x.msgID new
  | childDeleted hchild =>
      have hkept : ({ m with reestablish := true } : Machine).Addressed :=
        h.keep rfl fun hb => ⟨hb, rfl, rfl⟩
      exact hkept.aside rfl
  | lower hpending hctx => exact h.keep rfl fun hb => ⟨hb, rfl, rfl⟩
  | expire hmsg => exact h.keep rfl fun hb => ⟨hb, rfl, rfl⟩

end Machine.Addressed

end

/-! ## Headers -/

/-- The datagram is a message whose header fits the SA it is protected by, and tells what
the message is. -/
def Headed (c : Crypto) (l : Life) (b : Bytes) : Prop :=
  ∃ q ∈ encodings l.log, ∃ hdr, b = l.frame q.raw ∧
    Seals c q.ctx q.exchange q.flags q.msgID q.inner q.raw ∧ parse q.raw = .ok hdr ∧
    hdr.initiatorSPI = q.ctx.sa.initiatorSPI ∧ hdr.responderSPI = q.ctx.sa.responderSPI ∧
    (hdr.flags.isInitiator = true ↔ q.ctx.sa.role = .initiator) ∧
    (hdr.flags.isResponse = true ↔ ((q.sa, hdr.messageID), q.raw) ∈ answers l.log)

section

variable {c : Crypto} {l : Life}

/-- Every message is a request of ours or a response that was given, and a response was
given to a request that was taken up. -/
structure Life.Addressed (l : Life) : Prop where
  encodings : ∀ q ∈ encodings l.log, q.Told l.log
  answers : ∀ a ∈ answers l.log, a.1 ∈ takenUp l.log ∧
    ∃ q ∈ Session.encodings l.log, q.raw = a.2 ∧ q.flags = answerFlags q.ctx

theorem answers_of_asking {log : List Event}
    (h : ∀ e ∈ log, (∃ ctx, e = .established ctx) ∨ Asking c e) : answers log = [] := by
  induction log with
  | nil => rfl
  | cons e log ih =>
      have hrest := ih fun e' he' => h e' (List.mem_cons_of_mem _ he')
      rcases h e List.mem_cons_self with ⟨ctx, rfl⟩ | he
      · exact hrest
      · cases he
        exact hrest

/-- In the handshake there are only requests of ours. -/
theorem addressed_of_asking {log : List Event}
    (h : ∀ e ∈ log, (∃ ctx, e = .established ctx) ∨ Asking c e) {l : Life} (hlog : l.log = log) :
    l.Addressed := by
  subst hlog
  refine ⟨fun q hq => ?_, fun a ha => ?_⟩
  · obtain ⟨slot, hmem⟩ := mem_of_mem_encodings hq
    rcases h _ hmem with ⟨ctx, heq⟩ | hasking
    · cases heq
    · generalize hflags : q.flags = flags at hasking
      cases hasking with
      | intro => exact .inl hflags
  · rw [answers_of_asking h] at ha
    cases ha

theorem Lives.addressed (h : Lives c l) : l.Addressed := by
  cases h with
  | dialed w cfg creds inbox =>
      have hend := ((dialSession_leads (c := c) (w := w) cfg creds inbox).mono fun _ _ => .inr).snd
      refine addressed_of_asking (c := c) (fun e he => .inr ?_) rfl
      rcases hend with h | h
      · rw [Dialing.life, h.log] at he
        cases he
      · exact h.events e he
  | @driven w cfg creds inbox dl ike env ts d fin childPFS hdial hike hrun =>
      have hbegins := begins_driverStart env childPFS hdial hike
      have hstart : ((driverStart env (dl.drive ike childPFS)).2.view {}).Addressed := by
        obtain ⟨hencodings, hanswers⟩ :=
          addressed_of_asking (c := c) (fun e he => hbegins.event he)
            (l := (driverStart env (dl.drive ike childPFS)).2.life) rfl
        exact ⟨hencodings, hanswers, fun hbusy => by cases hbusy⟩
      obtain ⟨hend, -⟩ := hrun.invariant (r := anyTurn True) Machine.Addressed hstart
        hbegins.dataPlane (fun _ _ h hmove => h.move hmove) fun _ _ => admitted_anyTurn fun _ => trivial
      exact ⟨hend.encodings, hend.answers⟩

theorem Encoding.headed {q : Encoding} (hsound : l.Sound c) (haddressed : l.Addressed)
    (hq : q ∈ encodings l.log) : Headed c l (l.frame q.raw) := by
  obtain ⟨slot, hmem⟩ := mem_of_mem_encodings hq
  obtain ⟨hproper, hseals⟩ := hsound.log _ hmem
  obtain ⟨hdr, hparse, hspii, hspir, hflags, hid⟩ := hseals.parse hproper
  refine ⟨q, hq, hdr, rfl, hseals, hparse, hspii, hspir, ?_, fun hresp => ?_, fun hans => ?_⟩
  · rcases haddressed.encodings q hq with htold | ⟨htold, -⟩
    · rw [hflags, htold, isInitiator_ikeRoleBit]
    · rw [hflags, htold, isInitiator_answerFlags]
  · rcases haddressed.encodings q hq with htold | ⟨-, hans⟩
    · rw [hflags, htold, isResponse_ikeRoleBit] at hresp
      cases hresp
    · rw [hid]
      exact hans
  · -- the same bytes were encoded as a response, so the flag is in them
    obtain ⟨-, q', hq', hraw, hflags'⟩ := haddressed.answers _ hans
    obtain ⟨slot', hmem'⟩ := mem_of_mem_encodings hq'
    obtain ⟨hproper', hseals'⟩ := hsound.log _ hmem'
    obtain ⟨hdr', hparse', -, -, hflag, -⟩ := hseals'.parse hproper'
    rw [hraw] at hparse'
    cases hparse.symm.trans hparse'
    rw [hflag, hflags', isResponse_answerFlags]

/-- The header of every protected datagram names the SA that protects it, our role on it,
and whether it answers a request of the peer, with the Message ID of that request.  The SPIs
of the session are those of its IKE SA. -/
theorem headers_consistent (h : Lives c l) :
    (∀ ctx, l.ike = some ctx →
      ctx.spii = ctx.sa.initiatorSPI ∧ ctx.spir = ctx.sa.responderSPI) ∧
    (∀ b ∈ l.sent, IsSAInit b ∨ Headed c l b) ∧
    ∀ a ∈ answers l.log, a.1 ∈ takenUp l.log := by
  have hsound := h.sound
  have haddressed := h.addressed
  refine ⟨fun ctx hctx => ?_, fun b hb => ?_, fun a ha => (haddressed.answers a ha).1⟩
  · have hproper := hsound.ike ctx hctx
    exact ⟨hproper.initiatorSPI.symm, hproper.responderSPI.symm⟩
  · refine (hsound.sent b hb).imp_right ?_
    rintro ⟨raw, hraw, rfl⟩
    obtain ⟨q, hq, rfl⟩ := hraw.exists_encoding
    exact Encoding.headed hsound haddressed hq

end

/-- After the request of IKE_SA_INIT: one of IKE_AUTH, a response, a probe that is sent twice,
the response that cuts over, and a probe under the new IKE SA. -/
theorem headers_consistent_sample :
    Lives .sample sampleRenewed.life ∧ sampleRenewed.sent.length = 7 ∧
      lineage sampleRenewed.log = [(.responder, 1)] ∧
      (∀ b ∈ sampleRenewed.life.sent, IsSAInit b ∨ Headed .sample sampleRenewed.life b) ∧
      (answers sampleRenewed.log).map Prod.fst = [([], 1), ([], 0)] ∧
      ∀ a ∈ answers sampleRenewed.life.log, a.1 ∈ takenUp sampleRenewed.life.log := by
  have h := lives_sampleRenewed
  obtain ⟨-, hsent, htaken⟩ := headers_consistent h
  obtain ⟨hlength, hlineage, hanswers⟩ : sampleRenewed.sent.length = 7 ∧
      lineage sampleRenewed.log = [(.responder, 1)] ∧
      (answers sampleRenewed.log).map Prod.fst = [([], 1), ([], 0)] := by decide +kernel
  exact ⟨h, hlength, hlineage, hsent, hanswers, htaken⟩

end GoIpsec.Session
