import GoIpsec.Lib.Counter
import GoIpsec.Session.AuthSteps
import GoIpsec.Session.Transcript
import GoIpsec.Session.Window

/-!
# The life of a session

A session goes through a handshake and, if that succeeds, through turns of the control
loop.  `Life` is what the two leave to be seen: the datagrams, and the events they come
from.  The messages of the handshake are events of the first IKE SA.

What is shown here is where the datagrams come from.  A datagram is a request of
IKE_SA_INIT, which is not encrypted, or a message that was encoded under an IKE SA of the
session, whose SPIs are in its header (`Life.Sound`).  A session sends nothing else, since
all it keeps to be sent again is of that kind (`Stores`).
-/

set_option linter.dupNamespace false

namespace GoIpsec.Session

open Golang Ikemsg Ikesa

/-! ## Handshake and control loop -/

/-- `defaultDialSession`. -/
def dialSession (c : Crypto) (w : World) : Dial Unit := do
  Dial.ikeSAInit c w
  Dial.ikeAuth c w

/-- What a session has done so far. -/
structure Life where
  /-- The current IKE SA, with the SPIs of the session. -/
  ike : Option IkeCtx
  natt : Bool
  sent : List Bytes
  log : List Event
  spent : List Lineage

/-- What the transport is handed for an IKE message. -/
def Life.frame (l : Life) (ike : Bytes) : Bytes := if l.natt then wrapIKE ike else ike

/-- The event that a moment of the handshake is. -/
def Moment.event? : Moment → Option Event
  | .sealed ctx exchange flags msgID inner raw =>
      some (.sealed .cur ctx exchange flags msgID inner raw)
  | _ => none

def Dialing.life (d : Dialing) : Life where
  ike := d.s.ikeSA.map fun sa => { sa, spii := d.s.initiatorSPI, spir := d.s.responderSPI }
  natt := d.s.nattMode
  sent := d.sent
  log := d.log.filterMap Moment.event?
  spent := List.replicate d.spent []

def Drive.life (d : Drive) : Life where
  ike := d.s.ctx .cur
  natt := d.s.nattMode
  sent := d.sent
  log := d.log
  spent := d.spent

/-- The session that a handshake leaves, with its data plane wired. -/
def Handshake.session (s : Handshake) (ike : IKESA) (childPFS : Bool) : Session where
  cfg := s.cfg
  initiatorSPI := s.initiatorSPI
  responderSPI := s.responderSPI
  ikeSA := ike
  messageID := s.messageID
  child := s.child
  nattMode := s.nattMode
  dataPlane := true
  childPFS
  ikeDHGroup := s.ikeDHGroup

def Dialing.drive (d : Dialing) (ike : IKESA) (childPFS : Bool) : Drive where
  s := d.s.session ike childPFS
  reads := d.reads
  sent := d.sent
  log := d.log.filterMap Moment.event?
  spent := List.replicate d.spent []

/-- The lives of sessions: a handshake, however it ended, or some turns of the control loop
after a handshake that succeeded. -/
inductive Lives (c : Crypto) : Life → Prop
  | dialed (w : World) (cfg : Config) (creds : Credentials) (inbox : List Arrival) :
      Lives c (dialSession c w { s := .new cfg creds, inbox }).2.life
  | driven {w : World} {cfg : Config} {creds : Credentials} {inbox : List Arrival} {dl : Dialing}
      {ike : IKESA} {env : Env} {ts : List Turn} {d : Drive} {fin : Bool} (childPFS : Bool)
      (hdial : dialSession c w { s := .new cfg creds, inbox } = (.ok (), dl))
      (hike : dl.s.ikeSA = some ike)
      (hrun : Reaches c (driverStart env (dl.drive ike childPFS)).2 ts d fin) : Lives c d.life

/-- The SA is well-formed, and its SPIs are those it is used with. -/
structure IkeCtx.Proper (ctx : IkeCtx) : Prop where
  wf : ctx.sa.WF
  initiatorSPI : ctx.sa.initiatorSPI = ctx.spii
  responderSPI : ctx.sa.responderSPI = ctx.spir

/-- The IV counter does not matter. -/
theorem IkeCtx.Proper.withSeq {ctx : IkeCtx} (h : ctx.Proper) (n : UInt64) :
    IkeCtx.Proper { ctx with sa := { ctx.sa with skSeq := n } } :=
  ⟨⟨h.wf.skd, h.wf.skei, h.wf.sker, h.wf.aead⟩, h.initiatorSPI, h.responderSPI⟩

@[simp] theorem IkeCtx.proper_keys {ctx : IkeCtx} : ctx.keys.Proper ↔ ctx.Proper :=
  ⟨fun h => h.withSeq ctx.sa.skSeq, fun h => h.withSeq 0⟩

theorem proper_of_new {sa : IKESA} {role : Role} {spii spir : UInt64} (h : sa.New role spii spir) :
    IkeCtx.Proper { sa, spii, spir } :=
  ⟨h.wf, h.initiatorSPI, h.responderSPI⟩

/-- The encoding of a request of IKE_SA_INIT. -/
def IsSAInit (raw : Bytes) : Prop :=
  ∃ m : Message, m.exchange = exchangeIKESAInit ∧ (∀ p ∈ m.payloads, p.isSK = false) ∧
    m.marshal = .ok raw

/-- The message was encoded under an IKE SA. -/
def WasSealed (log : List Event) (raw : Bytes) : Prop :=
  ∃ slot ctx exchange flags msgID inner,
    Event.sealed slot ctx exchange flags msgID inner raw ∈ log

theorem WasSealed.mono {log log' : List Event} {raw : Bytes} (h : WasSealed log raw)
    (hlog : log ⊆ log') : WasSealed log' raw := by
  obtain ⟨slot, ctx, exchange, flags, msgID, inner, hmem⟩ := h
  exact ⟨slot, ctx, exchange, flags, msgID, inner, hlog hmem⟩

/-! ## IKE_SA_INIT -/

/-- The state of a handshake before there are keys. -/
structure Opening (d : Dialing) : Prop where
  ike : d.s.ikeSA = none
  natt : d.s.nattMode = false
  sent : ∀ b ∈ d.sent, IsSAInit b
  log : d.log = []
  spent : d.spent = 0

section

variable {c : Crypto} {w : World}

theorem attempts_sent (req : Bytes) (k : UInt32) (n : Nat) (d : Dialing) :
    ∀ b ∈ (Dial.attempts w req k n d).2.sent, b ∈ d.sent ∨ b = d.s.frame req := by
  induction n generalizing d with
  | zero => exact fun b hb => .inl hb
  | succ n ih =>
      have hone : ∀ b ∈ d.s.frame req :: d.sent, b ∈ d.sent ∨ b = d.s.frame req :=
        fun b hb => (List.mem_cons.mp hb).symm
      rw [Dial.attempts_succ]
      dsimp only
      split
      · split
        · exact hone
        · split
          · exact hone
          · intro b hb
            exact (ih _ b hb).elim (hone b) .inr
        · exact hone
      · exact hone

/-- An exchange sends nothing but the request. -/
theorem exchange_sent (req : Bytes) (k : UInt32) (d : Dialing) :
    ∀ b ∈ (Dial.exchange w req k d).2.sent, b ∈ d.sent ∨ b = d.s.frame req :=
  attempts_sent req k _ d

namespace Opening

theorem set {f : Handshake → Handshake} (hike : ∀ s, (f s).ikeSA = s.ikeSA)
    (hnatt : ∀ s, (f s).nattMode = s.nattMode) : Proc.Keeps Opening (Dial.setSession f) :=
  fun d h => ⟨(hike d.s).trans h.ike, (hnatt d.s).trans h.natt, h.sent, h.log, h.spent⟩

theorem session : Proc.Keeps Opening Dial.session := fun _ h => h

theorem randRead : Proc.Keeps Opening (Dial.randRead w) :=
  fun _ h => ⟨h.ike, h.natt, h.sent, h.log, h.spent⟩

theorem randBytes (n : Nat) : Proc.Keeps Opening (Dial.randBytes w n) :=
  randRead.bind fun _ => .lift _

theorem saInitKeys : Proc.Keeps Opening (Dial.saInitKeys c w) :=
  .bind ((randBytes 8).bind fun _ => .lift _) fun _ =>
    .bind (set (fun _ => rfl) fun _ => rfl) fun _ =>
      .bind (randRead.bind fun _ => .lift _) fun _ =>
        .bind (set (fun _ => rfl) fun _ => rfl) fun _ =>
          .bind (randBytes nonceLen) fun _ => set (fun _ => rfl) fun _ => rfl

theorem isSAInit_of_buildSAInit {s : Handshake} {cookie raw : Bytes} {m : Message}
    (h : s.buildSAInit w cookie = .ok (m, raw)) : IsSAInit raw := by
  obtain ⟨dh, -, hraw⟩ := buildSAInit_eq_ok h
  refine ⟨s.saInitRequest w dh cookie, rfl, fun p hp => ?_, hraw⟩
  simp only [Handshake.saInitRequest, Handshake.natDetection, List.mem_append, List.mem_cons,
    List.not_mem_nil, or_false] at hp
  rcases hp with hp | (rfl | rfl | rfl) | rfl | rfl
  · split at hp
    · rw [List.mem_singleton.mp hp]
      rfl
    · cases hp
  all_goals rfl

theorem exchangeInit {req : Bytes} (hreq : IsSAInit req) :
    Proc.Keeps Opening (Dial.exchangeInit w req) := by
  refine .bind (fun d h => ?_) fun _ => .bind (fun d h => ?_) fun _ => .pure _
  · have hsent := exchange_sent (w := w) req 0 d
    obtain ⟨sent, inbox, hd⟩ := Dial.exchange_frame (w := w) req 0 d
    rw [hd] at hsent ⊢
    refine ⟨h.ike, h.natt, fun b hb => ?_, h.log, h.spent⟩
    rcases hsent b hb with hb | rfl
    · exact h.sent b hb
    · rw [Handshake.frame, h.natt]
      exact hreq
  · exact ⟨h.ike, h.natt, h.sent, h.log, h.spent⟩

theorem sendSAInit (cookie : Bytes) : Proc.Keeps Opening (Dial.sendSAInit w cookie) := by
  intro d h
  have hleads : Proc.Leads (Dial.sendSAInit w cookie) d (fun _ => Opening) Opening := by
    refine .bind_of_ok rfl (.bind_lift h fun r hr => ?_)
    refine .bind_keeps (set (fun _ => rfl) fun _ => rfl) h fun _ d₁ _ h₁ => ?_
    refine .bind_keeps (exchangeInit (isSAInit_of_buildSAInit hr)).wrap h₁ fun _ d₂ _ h₂ => ?_
    exact .bind_keeps (set (fun _ => rfl) fun _ => rfl) h₂ fun _ _ _ h₃ => h₃
  exact hleads.snd

theorem retryCookie (rsp : Bytes) : Proc.Keeps Opening (Dial.retryCookie w rsp) := by
  unfold Dial.retryCookie
  cases saInitCookie rsp with
  | none => exact .pure _
  | some cookie => exact .bind (sendSAInit cookie) fun _ => .pure _

theorem retryInvalidKE (cookie rsp : Bytes) :
    Proc.Keeps Opening (Dial.retryInvalidKE c w cookie rsp) := by
  unfold Dial.retryInvalidKE
  cases saInitInvalidKE rsp with
  | none => exact .pure _
  | some g =>
      refine .bind (deref_keeps _) fun dh => .ite (.raise _) ?_
      refine .bind (randRead.bind fun _ => .lift _) fun _ =>
        .bind (set (fun _ => rfl) fun _ => rfl) fun _ => .bind (sendSAInit cookie) fun rsp' => ?_
      cases saInitCookie rsp' with
      | none => exact .pure _
      | some cookie' => exact .bind (sendSAInit cookie') fun _ => .pure _

theorem saInitPayload (dh : DH) (r : SaInitResponse) (p : Payload) :
    Proc.Keeps Opening (Dial.saInitPayload dh r p) := by
  cases p with
  | sa p =>
      unfold Dial.saInitPayload
      dsimp only
      cases p.proposals with
      | nil => exact .raise _
      | cons prop rest =>
          refine .bind session fun s => ?_
          cases selectedSuite prop s.enabledIKESuites with
          | none => exact .raise _
          | some suite => exact .ite (.raise _) (.pure _)
  | ke p => exact .bind (set (fun _ => rfl) fun _ => rfl) fun _ => .pure _
  | nonce p => exact .bind (set (fun _ => rfl) fun _ => rfl) fun _ => .pure _
  | _ => exact .pure _

theorem saInitPayloads (dh : DH) (r : SaInitResponse) (ps : Payloads) :
    Proc.Keeps Opening (Dial.saInitPayloads dh r ps) := by
  induction ps generalizing r with
  | nil => exact .pure _
  | cons p ps ih => exact .bind (saInitPayload dh r p) fun r' => ih r'

/-- The keys are the last thing that is set, so a response that is refused leaves none. -/
theorem handleSAInitResponse {raw : Bytes} {d : Dialing} (h : Opening d) :
    Proc.Leads (Dial.handleSAInitResponse c w raw) d (fun _ _ => True) Opening := by
  refine .bind_lift h fun m _ => .bind_of_ok rfl ?_
  refine .guard (fun _ => .guard (fun _ => .guard (fun _ => .guard (fun _ => .guard (fun _ => ?_)
    h) h) h) h) h
  refine .bind_keeps (set (fun _ => rfl) fun _ => rfl) h fun _ d₁ _ h₁ => ?_
  refine .bind_keeps (deref_keeps _) h₁ fun dh d₂ _ h₂ => ?_
  refine .bind_keeps (saInitPayloads dh {} _) h₂ fun r d₃ _ h₃ => ?_
  cases r.notifyErr with
  | some text => exact h₃
  | none =>
      cases r.suite with
      | none => exact h₃
      | some suite =>
          refine .guard (fun _ => ?_) h₃
          refine .bind_keeps (set (fun _ => rfl) fun _ => rfl) h₃ fun _ d₄ _ h₄ => ?_
          refine .bind_of_ok rfl (.bind_lift h₄ fun _ _ => .bind_lift h₄ fun _ _ => ?_)
          exact trivial

end Opening

/-- What is known after IKE_SA_INIT. -/
structure Opened (d : Dialing) : Prop where
  sent : ∀ b ∈ d.sent, IsSAInit b
  log : d.log = []
  spent : d.spent = 0

theorem ikeSAInit_leads (cfg : Config) (creds : Credentials) (inbox : List Arrival) :
    Proc.Leads (Dial.ikeSAInit c w) { s := .new cfg creds, inbox } (fun _ => Opened) Opening := by
  have h₀ : Opening { s := .new cfg creds, inbox } := ⟨rfl, rfl, nofun, rfl, rfl⟩
  refine .bind_of_ok rfl (.bind_lift h₀ fun _ _ => ?_)
  refine .bind_keeps Opening.saInitKeys h₀ fun _ d₁ _ h₁ => ?_
  refine .bind_keeps (Opening.sendSAInit []) h₁ fun rsp d₂ _ h₂ => ?_
  refine .bind_keeps (Opening.retryCookie rsp) h₂ fun r d₃ _ h₃ => ?_
  refine .bind_keeps (Opening.retryInvalidKE _ _) h₃ fun _ d₄ _ h₄ => .bind_of_ok rfl ?_
  refine .bind (Q := fun _ => Opened) (.of_result (fun _ d₅ hd₅ => ?_) h₄.handleSAInitResponse)
    fun _ d₅ h₅ => .bind_of_ok rfl ?_
  · obtain ⟨m, dh, r, -, -, -, -, -, -, suite, shared, ike, -, -, -, hd⟩ :=
      handleSAInitResponse_eq_ok hd₅
    rw [hd]
    exact ⟨h₄.sent, h₄.log, h₄.spent⟩
  · exact ⟨h₅.sent, h₅.log, h₅.spent⟩

end

/-! ## IKE_AUTH -/

/-- A message that was encoded. -/
structure Encoding where
  /-- The IKE SA it was encoded under. -/
  sa : Lineage
  /-- The state of that SA before. -/
  ctx : IkeCtx
  exchange : ExchangeType
  flags : Flags
  msgID : UInt32
  inner : Payloads
  raw : Bytes

/-- The messages that were encoded, newest first. -/
def encodings : List Event → List Encoding
  | [] => []
  | .sealed slot ctx exchange flags msgID inner raw :: log =>
      { sa := (lineage log).at slot, ctx, exchange, flags, msgID, inner, raw } :: encodings log
  | _ :: log => encodings log

theorem mem_of_mem_encodings {log : List Event} {q : Encoding} (h : q ∈ encodings log) :
    ∃ slot, Event.sealed slot q.ctx q.exchange q.flags q.msgID q.inner q.raw ∈ log := by
  induction log with
  | nil => cases h
  | cons e log ih =>
      have hrest (h : q ∈ encodings log) : ∃ slot,
          Event.sealed slot q.ctx q.exchange q.flags q.msgID q.inner q.raw ∈ e :: log := by
        obtain ⟨slot, hmem⟩ := ih h
        exact ⟨slot, List.mem_cons_of_mem _ hmem⟩
      cases e with
      | sealed slot ctx exchange flags msgID inner raw =>
          rcases List.mem_cons.mp h with rfl | h
          · exact ⟨slot, List.mem_cons_self⟩
          · exact hrest h
      | _ => exact hrest h

theorem WasSealed.exists_encoding {log : List Event} {raw : Bytes} (h : WasSealed log raw) :
    ∃ q ∈ encodings log, q.raw = raw := by
  obtain ⟨slot, ctx, exchange, flags, msgID, inner, hmem⟩ := h
  induction log with
  | nil => cases hmem
  | cons e log ih =>
      rcases List.mem_cons.mp hmem with rfl | hmem
      · exact ⟨_, List.mem_cons_self, rfl⟩
      · obtain ⟨q, hq, hraw⟩ := ih hmem
        refine ⟨q, ?_, hraw⟩
        cases e with
        | sealed => exact List.mem_cons_of_mem _ hq
        | _ => exact hq

/-- The values of the IV counter that the messages under an IKE SA were encoded at. -/
def counters (g : Lineage) (log : List Event) : List UInt64 :=
  ((encodings log).filter fun q => q.sa = g ∧ q.ctx.sa.suite.aead = true).map fun q => q.ctx.sa.skSeq

/-- A request of ours was encoded. -/
inductive Asking (c : Crypto) : Event → Prop
  | intro {ctx : IkeCtx} {exchange : ExchangeType} {msgID : UInt32} {inner : Payloads} {raw : Bytes}
      (hctx : ctx.Proper)
      (hraw : Seals c ctx exchange (ikeRoleBit ctx.sa.role) msgID inner raw) :
      Asking c (.sealed .cur ctx exchange (ikeRoleBit ctx.sa.role) msgID inner raw)

/-- The state of a handshake that has keys. -/
structure Talks (c : Crypto) (d : Dialing) : Prop where
  ike : ∃ sa, d.s.ikeSA = some sa ∧
    IkeCtx.Proper { sa, spii := d.s.initiatorSPI, spir := d.s.responderSPI } ∧
    sa.skSeq = UInt64.ofNat d.spent
  events : ∀ e ∈ d.life.log, Asking c e
  sent : ∀ b ∈ d.sent, IsSAInit b ∨ ∃ raw, WasSealed d.life.log raw ∧ b = d.life.frame raw
  rising : Rising d.spent (counters [] d.life.log)

/-- There is no cutover in a handshake. -/
theorem lineage_life (d : Dialing) : lineage d.life.log = [] := by
  unfold Dialing.life
  induction d.log with
  | nil => rfl
  | cons e log ih => cases e <;> exact ih

section

variable {c : Crypto} {w : World} {d : Dialing} {ike : IKESA}

namespace Talks

theorem spend_kept (h : Talks c d) (hike : d.s.ikeSA = some ike) : Talks c (d.spend ike ike) := by
  have hspent : (d.spend ike ike).spent = d.spent := if_pos rfl
  obtain ⟨sa, hsa, hproper, hseq⟩ := h.ike
  cases hike.symm.trans hsa
  refine ⟨⟨ike, rfl, hproper, hseq.trans ?_⟩, h.events, h.sent, ?_⟩
  · rw [hspent]
  · rw [hspent]
    exact h.rising

theorem spend_used (h : Talks c d) (hike : d.s.ikeSA = some ike) :
    (d.spend ike { ike with skSeq := ike.skSeq + 1 }).spent = d.spent + 1 ∧
      ike.skSeq = UInt64.ofNat d.spent ∧ Talks c (d.spend ike { ike with skSeq := ike.skSeq + 1 }) := by
  have hspent : (d.spend ike { ike with skSeq := ike.skSeq + 1 }).spent = d.spent + 1 :=
    if_neg (by simp)
  obtain ⟨sa, hsa, hproper, hseq⟩ := h.ike
  cases hike.symm.trans hsa
  refine ⟨hspent, hseq, ⟨_, rfl, hproper.withSeq _, ?_⟩, h.events, h.sent, ?_⟩
  · rw [hspent, hseq]
    simp
  · rw [hspent]
    exact h.rising.mono (Nat.le_succ _)

/-- A message of the handshake is noted. -/
theorem note (h : Talks c d) {ctx : IkeCtx} {t : ExchangeType} {k : UInt32} {inner : Payloads}
    {raw : Bytes} (hctx : ctx.Proper)
    (hraw : Seals c ctx t (ikeRoleBit ctx.sa.role) k inner raw)
    (hrising : ctx.sa.suite.aead = true →
      Rising d.spent (ctx.sa.skSeq :: counters [] d.life.log)) :
    Talks c { d with log := .sealed ctx t (ikeRoleBit ctx.sa.role) k inner raw :: d.log } where
  ike := h.ike
  events e he := by
    rcases List.mem_cons.mp he with rfl | he
    · exact .intro hctx hraw
    · exact h.events e he
  sent b hb := by
    refine (h.sent b hb).imp_right fun ⟨raw', hraw', hb'⟩ => ⟨raw', hraw'.mono ?_, hb'⟩
    exact List.subset_cons_self _ _
  rising := by
    change Rising d.spent (counters [] (.sealed .cur ctx t (ikeRoleBit ctx.sa.role) k inner raw ::
      d.life.log))
    simp only [counters, encodings, lineage_life, Lineage.at, List.filter_cons]
    by_cases haead : ctx.sa.suite.aead = true
    · simp only [haead, and_self, decide_true, if_true, List.map_cons]
      exact hrising haead
    · simp only [haead, Bool.false_eq_true, and_false, decide_false, if_false]
      exact h.rising

theorem encodeSK (h : Talks c d) (hike : d.s.ikeSA = some ike) (t : ExchangeType) (k : UInt32)
    (inner : Payloads) :
    Proc.Leads (Dial.encodeSK c w t (ikeRoleBit ike.role) k inner) d
      (fun raw d' => Talks c d' ∧ WasSealed d'.life.log raw) (Talks c) := by
  obtain ⟨sa, hsa, hproper, -⟩ := h.ike
  cases hike.symm.trans hsa
  have huses := uses_encodeSKWith c ike (w.rand d.reads) d.s.initiatorSPI d.s.responderSPI t
    (ikeRoleBit ike.role) k inner
  unfold Proc.Leads Dial.encodeSK
  rw [hike]
  dsimp only
  generalize hr : encodeSKWith c ike (w.rand d.reads) d.s.initiatorSPI d.s.responderSPI t
    (ikeRoleBit ike.role) k inner = r at huses ⊢
  cases huses with
  | kept res hres =>
      cases res with
      | error e => exact h.spend_kept hike
      | ok raw =>
          refine ⟨(h.spend_kept hike).note hproper ⟨_, _, hr⟩ fun haead => ?_, ?_⟩
          · exact absurd rfl (hres haead raw)
          · exact ⟨_, _, _, _, _, _, List.mem_cons_self⟩
  | used res haead =>
      obtain ⟨hspent, hseq, htalks⟩ := h.spend_used hike
      cases res with
      | error e => exact htalks
      | ok raw =>
          refine ⟨htalks.note hproper ⟨_, _, hr⟩ fun _ => ?_, ?_⟩
          · rw [hspent, hseq]
            exact h.rising.cons
          · exact ⟨_, _, _, _, _, _, List.mem_cons_self⟩

theorem exchange (h : Talks c d) {req : Bytes} (hreq : WasSealed d.life.log req) (k : UInt32) :
    Talks c (Dial.exchange w req k d).2 := by
  have hsent := exchange_sent (w := w) req k d
  obtain ⟨sent, inbox, hd⟩ := Dial.exchange_frame (w := w) req k d
  rw [hd] at hsent ⊢
  refine ⟨h.ike, h.events, fun b hb => ?_, h.rising⟩
  rcases hsent b hb with hb | rfl
  · exact h.sent b hb
  · exact .inr ⟨req, hreq, rfl⟩

theorem exchangeNext (what : String) (inner : Payloads) :
    Proc.Keeps (Talks c) (Dial.exchangeNext c w what inner) := by
  refine fun d h => Proc.Leads.snd (.bind_of_ok rfl (.bind (Q := fun _ => Talks c) (.wrap ?_)
    fun _ d' h' => ?_))
  · refine deref_leads h fun ike hike => .bind (h.encodeSK hike _ _ _) fun req d₁ h₁ => ?_
    have hex := h₁.1.exchange (w := w) h₁.2 d.s.messageID
    refine .bind (Q := fun _ => Talks c) (.intro (fun _ d₂ hd₂ => ?_) hex) fun raw d₂ h₂ => ?_
    · rwa [hd₂] at hex
    · have hdec := decodeSK_keeps (c := c) (P := Talks c) raw
        (fun _ _ h => ⟨h.ike, h.events, h.sent, h.rising⟩) d₂ h₂
      refine .intro (fun _ d₃ hd₃ => ?_) hdec
      rwa [hd₃] at hdec
  · exact ⟨h'.ike, h'.events, h'.sent, h'.rising⟩

theorem ikeAuth : Proc.Keeps (Talks c) (Dial.ikeAuth c w) := by
  refine ikeAuth_keeps ⟨?_, ?_, ?_, ?_⟩ exchangeNext ?_ ?_
  · exact fun d _ h => ⟨h.ike, h.events, h.sent, h.rising⟩
  · exact fun d _ h => ⟨h.ike, h.events, h.sent, h.rising⟩
  · exact fun d _ h => ⟨h.ike, h.events, h.sent, h.rising⟩
  · exact fun d _ _ h => ⟨h.ike, h.events, h.sent, h.rising⟩
  · exact fun d _ _ h => ⟨h.ike, h.events, h.sent, h.rising⟩
  · exact fun d _ _ h => ⟨h.ike, h.events, h.sent, h.rising⟩

end Talks

/-- A handshake ends without keys, or with keys and a record of all that was sent. -/
theorem dialSession_leads (cfg : Config) (creds : Credentials) (inbox : List Arrival) :
    Proc.Leads (dialSession c w) { s := .new cfg creds, inbox } (fun _ => Talks c)
      fun d => Opening d ∨ Talks c d := by
  have hinit := ikeSAInit_leads (c := c) (w := w) cfg creds inbox
  refine .bind (Q := fun _ => Talks c) (.of_result (fun _ d hd => ?_) ?_) fun _ d h => ?_
  · have hopened := hinit.of_ok hd
    obtain ⟨dh, req, rsp, hbound⟩ := ikeSAInit_bound cfg creds _ d rfl hd
    obtain ⟨-, -, suite, shared, ike, -, -, -, -, -, hder, hike⟩ := hbound.keys
    have hnew := new_of_derive hder
    have hlog : d.life.log = [] := by rw [Dialing.life, hopened.log]; rfl
    refine ⟨⟨ike, hike, proper_of_new hnew, ?_⟩, ?_, fun b hb => .inl (hopened.sent b hb), ?_⟩
    · rw [hopened.spent]
      exact hnew.skSeq
    · rw [hlog]
      exact List.forall_mem_nil _
    · rw [hlog]
      exact .nil _
  · exact (hinit.weaken fun _ h => .inl h).mono fun _ _ _ => trivial
  · have hend := Talks.ikeAuth (w := w) d h
    refine .intro (fun _ d' hd' => ?_) (.inr hend)
    rwa [hd'] at hend

end

end GoIpsec.Session
