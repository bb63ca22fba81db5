import GoIpsec.Session.Correlation
import GoIpsec.Session.Ticks

/-!
# A turn while a probe is outstanding

A tick takes a probe one step along its schedule: it waits, is repeated or, when its tries have
run out, ends the loop.  The schedule depends on the clocks and the settings only
(`PendingExchange.polled`).

A message of the peer does not move it.  The answer to the probe ends it, and so does a request
that puts another IKE SA in the place of the one the probe was made under; no other message
bears on it.
-/

set_option linter.dupNamespace false

namespace GoIpsec.Session

open Golang Ikemsg Ikesa

/-- The exchange is a probe. -/
def PendingExchange.isProbe (p : PendingExchange) : Bool := p.kind = .dpd

/-- An exchange after a tick that finds it unanswered, or none if its tries have run out. -/
def PendingExchange.polled (p : PendingExchange) (env : Env) (s : Session) : Option PendingExchange :=
  let q := p.woken env s
  (q.attempt.poll (s.delay q.fast) (s.tries q.fast) (env.clock .tick)).map fun a =>
    { q with attempts := a.sent, nextRetransmit := a.due }

section

variable {c : Crypto} {env : Env} {d d' : Drive} {s : Session} {p q : PendingExchange}

/-- The exchange stays the same request. -/
theorem PendingExchange.polled_same (h : p.polled env s = some q) :
    q.kind = p.kind ∧ q.msgID = p.msgID ∧ q.raw = p.raw := by
  obtain ⟨a, -, rfl⟩ := Option.map_eq_some_iff.mp h
  dsimp only [PendingExchange.woken]
  split <;> exact ⟨rfl, rfl, rfl⟩

/-! ## What a tick does with a probe -/

/-- A tick takes the probe one step along its schedule, and ends the loop if that is over. -/
theorem driverStep_tick {fin : Bool} (hp : d.s.pending = some p) (hprobe : p.isProbe = true)
    (hstep : driverStep c env .tick d = (.ok fin, d')) :
    fin = (p.polled env d.s).isNone ∧ (fin = false → d'.s.pending = p.polled env d.s) := by
  obtain ⟨d₁, hp₁, hcfg, hrun⟩ := housekeeping_busy c env hp
  have hpoll := polled_retransmitPending env (env.clock .tick) hp₁
  have hkind : (p.woken env d.s).kind = .dpd := by
    unfold PendingExchange.woken
    split <;> exact of_decide_eq_true hprobe
  rw [← hrun, show housekeeping c env d = _ from hstep] at hpoll
  unfold PendingExchange.polled
  dsimp only
  rw [← delay_congr hcfg, ← tries_congr hcfg]
  cases hpoll with
  | kept a d' hpoll hs =>
      rw [hpoll, hs]
      exact ⟨rfl, fun _ => rfl⟩
  | dead d' hpoll hdpd hlog =>
      rw [hpoll]
      exact ⟨rfl, nofun⟩
  | dropped d' hpoll hdpd hs => exact (hdpd hkind).elim

/-! ## What a message does with a probe -/

section

variable {R : Option PendingExchange → Prop} {slot : Slot} {msgID : UInt32} {inner : Payloads}

/-- What leaves the session as it is leaves the outstanding exchange alone. -/
theorem keeps_pending {α : Type} {x : Drv α} (h : ∀ o child us, Proc.Keeps (Holds o child us) x) :
    Proc.Keeps (fun d => R d.s.pending) x := by
  intro d hd
  have hafter := h d.s.pending d.s.child (updates d.log) d ⟨rfl, rfl, rfl⟩
  exact hafter.pending.symm ▸ hd

theorem keeps_pending_of_silent {α : Type} {x : Drv α} (h : Silent x) :
    Proc.Keeps (fun d => R d.s.pending) x :=
  keeps_pending fun _ _ _ => Holds.of_silent h

theorem sendNotifyResponse_keeps_pending (protocol : ProtocolID) (type : NotifyType) (data : Bytes) :
    Proc.Keeps (fun d => R d.s.pending) (sendNotifyResponse c env slot msgID protocol type data) :=
  keeps_pending fun _ _ _ => Holds.sendNotifyResponse _ _ _

theorem handleInboundChildDelete_keeps_pending (del : DeletePayload) :
    Proc.Keeps (fun d => d.s.pending = some p) (handleInboundChildDelete c env del) := by
  intro d hd
  rw [handleInboundChildDelete, run_session_bind]
  cases d.s.child with
  | none => exact hd
  | some child =>
      dsimp only
      split
      · exact hd
      · rw [run_emit_bind, hd]
        exact hd

theorem handleDeletes_keeps_pending (slot : Slot) : ∀ (inner : Payloads) (teardown : Bool),
    Proc.Keeps (fun d => d.s.pending = some p) (handleDeletes c env slot inner teardown)
  | [], teardown => Proc.Keeps.pure teardown
  | payload :: ps, teardown => by
      cases payload <;> unfold handleDeletes
      case delete del =>
        refine Proc.Keeps.ite (handleDeletes_keeps_pending slot ps _) (Proc.Keeps.ite ?_ ?_)
        · exact (handleInboundChildDelete_keeps_pending del).bind fun _ =>
            handleDeletes_keeps_pending slot ps _
        · exact handleDeletes_keeps_pending slot ps _
      all_goals exact handleDeletes_keeps_pending slot ps _

theorem handleInformationalRequest_keeps_pending : Proc.Keeps (fun d => d.s.pending = some p)
    (handleInformationalRequest c env msgID inner slot) := by
  refine (handleDeletes_keeps_pending slot inner false).bind fun _ => ?_
  refine (keeps_pending_of_silent (R := (· = some p)) (Silent.responseFlags slot)).bind fun _ => ?_
  exact (keeps_pending (R := (· = some p)) fun _ _ _ => Holds.answerWith (Holds.encodeEmptyIn _ _)).bind
    fun _ => Proc.Keeps.pure _

theorem installAnswered_keeps_pending (pfs : Option DH) (u : ChildSAUpdate) (child : ChildSA)
    (raw : Bytes) : Proc.Keeps (fun d => R d.s.pending) (installAnswered env slot msgID pfs u child raw) := by
  have hinstall : Proc.Keeps (fun d => R d.s.pending) (installChildSA .responder slot msgID u) := by
    intro d hd
    rw [installChildSA, run_session_bind]
    split <;> exact hd
  refine Proc.Keeps.bind (fun d hd => by cases pfs <;> exact hd) fun _ => hinstall.bind fun _ =>
    Proc.Keeps.bind (fun _ hd => hd) fun _ => ?_
  refine (keeps_pending_of_silent Silent.session).bind fun s => ?_
  refine (keeps_pending_of_silent (Silent.jitteredDeadline _ _)).bind fun _ =>
    Proc.Keeps.bind (fun _ hd => hd) fun _ => ?_
  exact (keeps_pending fun _ _ _ => Holds.recordPeerResponse raw).bind fun _ =>
    keeps_pending_of_silent (Silent.sendDatagram raw)

theorem acceptChildRekey_keeps_pending (live : ChildSA) (req : ChildRekeyRequest) (prop : Proposal)
    (suite : EspSuite) :
    Proc.Keeps (fun d => R d.s.pending) (acceptChildRekey c env slot msgID live req prop suite) := by
  have hfail : Proc.Keeps (fun d => R d.s.pending) (sendTemporaryFailure c env slot msgID) :=
    sendNotifyResponse_keeps_pending _ _ _
  refine (Proc.Keeps.lift _).bind fun _ =>
    (keeps_pending fun _ _ _ => Holds.childRekeyPFS req.ke).bind fun pfs => ?_
  refine ((keeps_pending_of_silent (Silent.randBytes 4)).onError hfail).bind fun _ =>
    (Proc.Keeps.lift _).bind fun _ => ?_
  refine ((keeps_pending_of_silent (Silent.randBytes nonceLen)).onError hfail).bind fun _ =>
    (keeps_pending_of_silent Silent.session).bind fun s => ?_
  refine (keeps_pending_of_silent (Silent.responseFlags slot)).bind fun _ =>
    ((keeps_pending fun _ _ _ => Holds.encodeIn _ _ _).onError fun _ hd => hd).bind fun raw => ?_
  cases s.ctx slot with
  | none => exact Proc.Keeps.lift _
  | some ctx => exact (Proc.Keeps.lift _).bind fun _ => installAnswered_keeps_pending _ _ _ _

theorem handleChildRekeyRequest_keeps_pending :
    Proc.Keeps (fun d => R d.s.pending) (handleChildRekeyRequest c env msgID inner slot) := by
  refine (keeps_pending_of_silent Silent.session).bind fun s => ?_
  cases s.child with
  | none => exact (sendNotifyResponse_keeps_pending _ _ _).bind fun _ => Proc.Keeps.raise _
  | some live =>
      dsimp only
      split
      · exact (sendNotifyResponse_keeps_pending _ _ _).bind fun _ => Proc.Keeps.lift _
      · refine Proc.Keeps.ite (sendNotifyResponse_keeps_pending _ _ _) ?_
        split
        · exact acceptChildRekey_keeps_pending _ _ _ _
        · refine Proc.Keeps.ite (sendNotifyResponse_keeps_pending _ _ _) ?_
          exact (sendNotifyResponse_keeps_pending _ _ _).bind fun _ => Proc.Keeps.raise _

theorem acceptIKERekey_keeps_pending (hnone : R none) (ni : Bytes) (kei : KEPayload) (prop : Proposal)
    (suite : IkeSuite) :
    Proc.Keeps (fun d => R d.s.pending) (acceptIKERekey c env msgID ni kei prop suite) := by
  have hfail : Proc.Keeps (fun d => R d.s.pending) (sendTemporaryFailure c env .cur msgID) :=
    sendNotifyResponse_keeps_pending _ _ _
  have hswap (new : IKESA) (spii spir : UInt64) :
      Proc.Keeps (fun d => R d.s.pending) (swapIKE env new spii spir) := by
    refine Proc.Keeps.bind (fun _ hd => hd) fun _ =>
      (keeps_pending_of_silent Silent.session).bind fun s => ?_
    exact (keeps_pending_of_silent (Silent.jitteredDeadline _ _)).bind fun _ => fun _ _ => hnone
  refine (Proc.Keeps.lift _).bind fun _ =>
    ((keeps_pending_of_silent (Silent.newDHFor _)).onError hfail).bind fun dh => ?_
  refine ((Proc.Keeps.lift _).onError (sendNotifyResponse_keeps_pending _ _ _)).bind fun _ =>
    ((keeps_pending_of_silent Silent.randUint64).onError hfail).bind fun _ => ?_
  refine ((keeps_pending_of_silent (Silent.randBytes nonceLen)).onError hfail).bind fun _ =>
    (keeps_pending_of_silent Silent.session).bind fun s => ?_
  refine ((Proc.Keeps.lift _).onError hfail).bind fun _ =>
    (keeps_pending_of_silent (Silent.responseFlags .cur)).bind fun _ => ?_
  refine ((keeps_pending fun _ _ _ => Holds.encodeIn _ _ _).onError hfail).bind fun raw =>
    (keeps_pending fun _ _ _ => Holds.recordPeerResponse raw).bind fun _ => ?_
  have hlog (e : Event) : Proc.Keeps (fun d => R d.s.pending) (emit e) := fun _ hd => hd
  refine (hlog _).bind fun _ => (hswap _ _ _).bind fun _ => ?_
  exact Proc.Keeps.bind (fun _ hd => hd) fun _ => keeps_pending_of_silent (Silent.sendDatagram raw)

theorem handleIKERekeyRequest_keeps_pending (hnone : R none) :
    Proc.Keeps (fun d => R d.s.pending) (handleIKERekeyRequest c env msgID inner) := by
  refine (keeps_pending_of_silent Silent.session).bind fun s => ?_
  split
  · exact (sendNotifyResponse_keeps_pending _ _ _).bind fun _ => Proc.Keeps.lift _
  · refine Proc.Keeps.ite (sendNotifyResponse_keeps_pending _ _ _) ?_
    split
    · exact acceptIKERekey_keeps_pending hnone _ _ _ _
    · refine Proc.Keeps.ite (sendNotifyResponse_keeps_pending _ _ _) ?_
      exact (sendNotifyResponse_keeps_pending _ _ _).bind fun _ => Proc.Keeps.raise _

theorem handleCreateChildSA_keeps_pending (hnone : R none) :
    Proc.Keeps (fun d => R d.s.pending) (handleCreateChildSA c env msgID inner slot) := by
  refine (keeps_pending_of_silent Silent.session).bind fun s => ?_
  refine Proc.Keeps.ite (sendNotifyResponse_keeps_pending _ _ _) (Proc.Keeps.ite ?_ ?_)
  · cases slot with
    | old => exact sendNotifyResponse_keeps_pending _ _ _
    | cur =>
        exact (handleIKERekeyRequest_keeps_pending hnone).attempt.bind fun _ => Proc.Keeps.pure ()
  · exact handleChildRekeyRequest_keeps_pending.attempt.bind fun _ => Proc.Keeps.pure ()

theorem takeUp_keeps_pending {process : Drv Bool} (h : Proc.Keeps (fun d => R d.s.pending) process) :
    Proc.Keeps (fun d => R d.s.pending) (takeUp env msgID slot process) := by
  have hlog (e : Event) : Proc.Keeps (fun d => R d.s.pending) (emit e) := fun _ hd => hd
  have hdedup : Proc.Keeps (fun d => R d.s.pending) (dedupPeerRequest env msgID slot) := by
    refine (keeps_pending_of_silent Silent.session).bind fun s => ?_
    refine Proc.Keeps.ite (Proc.Keeps.ite ?_ (Proc.Keeps.pure _)) (Proc.Keeps.pure _)
    exact (keeps_pending_of_silent (Silent.sendDatagram _)).attempt.bind fun _ => Proc.Keeps.pure _
  refine hdedup.bind fun duplicate => Proc.Keeps.ite (Proc.Keeps.pure _) ?_
  exact (hlog _).bind fun _ => h.bind fun _ => (hlog _).bind fun _ => Proc.Keeps.pure _

end

/-- A request of the peer leaves the outstanding exchange alone, or drops it with the IKE SA
it was made under. -/
theorem dispatch_request {hdr : Message} {inner : Payloads} {slot : Slot} (hp : d.s.pending = some p)
    (hreq : hdr.flags.isResponse = false) :
    (dispatch c env hdr inner slot d).2.s.pending = some p ∨
      (dispatch c env hdr inner slot d).2.s.pending = none := by
  have hresp : ¬ hdr.flags.isResponse = true := by
    rw [hreq]
    exact Bool.false_ne_true
  unfold dispatch
  dsimp only
  rw [if_neg hresp, if_neg hresp]
  split
  · have hprocess : Proc.Keeps (fun d => d.s.pending = some p) (do
        let teardown ← handleInformationalRequest c env hdr.messageID inner slot
        if teardown then do
          onDead
          return true
        else return false) :=
      handleInformationalRequest_keeps_pending.bind fun _ => Proc.Keeps.ite
        (Proc.Keeps.bind (fun _ hd => hd) fun _ => Proc.Keeps.pure _) (Proc.Keeps.pure _)
    exact .inl (takeUp_keeps_pending (R := (· = some p)) hprocess d hp)
  split
  · refine takeUp_keeps_pending (R := fun o => o = some p ∨ o = none) ?_ d (.inl hp)
    exact (handleCreateChildSA_keeps_pending (R := fun o => o = some p ∨ o = none) (.inr rfl)).bind
      fun _ => Proc.Keeps.pure _
  · exact .inl hp

theorem pending_of_cleared {hdr : Message} {slot : Slot} (h : Cleared hdr d slot d') :
    d'.s.pending = d.s.pending ∨ d'.s.pending = none := by
  cases h with
  | none => exact .inl rfl
  | pending => exact .inr rfl
  | oldDelete => exact .inl rfl

/-- A datagram leaves the probe alone or ends it. -/
theorem driverStep_datagram {raw : Bytes} {fin : Bool} (hp : d.s.pending = some p)
    (hprobe : p.isProbe = true) (hstep : driverStep c env (.datagram raw) d = (.ok fin, d')) :
    d'.s.pending = some p ∨ d'.s.pending = none := by
  have hkind : p.kind = .dpd := of_decide_eq_true hprobe
  rw [driverStep] at hstep
  cases hdecode : d.s.decodeIKE c env raw with
  | error e =>
      rw [handleInbound, run_session_bind, hdecode] at hstep
      cases e <;> cases hstep
      exact .inl hp
  | ok res =>
      obtain ⟨hdr, inner, slot⟩ := res
      rw [handleInbound_decoded hdecode] at hstep
      obtain rfl : (dispatch c env hdr inner slot (heard env d)).2 = d' := congrArg Prod.snd hstep
      cases hresp : hdr.flags.isResponse with
      | false => exact dispatch_request (d := heard env d) hp hresp
      | true =>
          have hcleared : Cleared hdr (heard env d) slot (dispatch c env hdr inner slot (heard env d)).2 := by
            refine dispatch_response hresp fun _ _ q hq _ => ?_
            cases hp.symm.trans hq
            rw [hkind]
            rfl
          rw [← show (heard env d).s.pending = some p from hp]
          exact pending_of_cleared hcleared

end

end GoIpsec.Session
