import GoIpsec.Session.Informational

/-!
# The exchange machine

What the control loop does, without its timers, its retransmissions and its code: a
machine whose state is the two IKE SAs with their response caches, the exchange of
ours that is outstanding, the live Child SA, and the log.  A move of the machine is
one act: a request is sent, a request of the peer is taken up and answered, an
exchange of ours ends in one of its ways.  Where the loop does several things that
only make sense together, such as installing a Child SA and caching the response
that says so, the move does them at once.

A move says under what condition it happens and what the message it sends contains.
The properties of runs are proved of the moves.  That every turn of the loop is a
sequence of moves is proved apart from them.
-/

set_option linter.dupNamespace false

namespace GoIpsec.Session

open Golang Ikemsg Ikesa

/-- An SA without its IV counter, which changes with every message. -/
def IkeCtx.keys (ctx : IkeCtx) : IkeCtx := { ctx with sa := { ctx.sa with skSeq := 0 } }

@[simp] theorem IkeCtx.keys_keys (ctx : IkeCtx) : ctx.keys.keys = ctx.keys := rfl

/-- A decoded message, with the SA it was decoded under. -/
structure Msg where
  slot : Slot
  exchange : ExchangeType
  flags : Flags
  msgID : UInt32
  inner : Payloads

structure Machine where
  cfg : Config
  dataPlane : Bool
  ike : IkeCtx
  old : Option IkeCtx
  messageID : UInt32
  /-- The outstanding exchange of ours and its Message ID. -/
  pending : Option (UInt32 × ExchangeKind)
  child : Option ChildSA
  reestablish : Bool
  peer : PeerDedup
  oldPeer : PeerDedup
  log : List Event
  /-- The message in hand. -/
  msg : Option Msg
  /-- The message in hand is a request that has been taken up. -/
  opened : Bool
  /-- The request has not been answered yet. -/
  busy : Bool

/-- What is known of a turn of the loop and not kept in the session: the message in
hand, and whether a Child SA is owed for one that was deleted just now. -/
structure Hand where
  msg : Option Msg := none
  opened : Bool := false
  busy : Bool := false
  owed : Bool := false

/-- The state of the machine that a session in a run is in. -/
def Drive.view (d : Drive) (h : Hand) : Machine where
  cfg := d.s.cfg
  dataPlane := d.s.dataPlane
  ike := IkeCtx.keys { sa := d.s.ikeSA, spii := d.s.initiatorSPI, spir := d.s.responderSPI }
  old := d.s.oldIKE.map IkeCtx.keys
  messageID := d.s.messageID
  pending := d.s.pending.map fun p => (p.msgID, p.kind)
  child := d.s.child
  reestablish := d.s.childReestablish || h.owed
  peer := d.s.peer
  oldPeer := d.s.oldPeer
  log := d.log
  msg := h.msg
  opened := h.opened
  busy := h.busy

namespace Machine

def ctx (m : Machine) : Slot → Option IkeCtx
  | .cur => some m.ike
  | .old => m.old

def dedup (m : Machine) : Slot → PeerDedup
  | .cur => m.peer
  | .old => m.oldPeer

/-- Cache a response. -/
def record (m : Machine) (slot : Slot) (msgID : UInt32) (raw : Bytes) : Machine :=
  { m with
    peer := match slot with
      | .cur => { msgID, set := true, resp := raw }
      | .old => m.peer
    oldPeer := match slot with
      | .cur => m.oldPeer
      | .old => { msgID, set := true, resp := raw } }

/-- Make `new` the current SA. -/
def swap (m : Machine) (new : IkeCtx) : Machine :=
  { m with ike := new.keys, old := some m.ike, oldPeer := m.peer, peer := {}, messageID := 0,
           pending := none }

def push (m : Machine) (events : List Event) : Machine := { m with log := events ++ m.log }

@[simp] theorem dedup_push (m : Machine) (events : List Event) (slot : Slot) :
    (m.push events).dedup slot = m.dedup slot := by
  cases slot <;> rfl

@[simp] theorem dedup_record (m : Machine) (slot : Slot) (msgID : UInt32) (raw : Bytes) :
    (m.record slot msgID raw).dedup slot = { msgID, set := true, resp := raw } := by
  cases slot <;> rfl

theorem dedup_record_of_ne {slot slot' : Slot} (h : slot' ≠ slot) (m : Machine) (msgID : UInt32)
    (raw : Bytes) : (m.record slot msgID raw).dedup slot' = m.dedup slot' := by
  cases slot <;> cases slot'
  · exact absurd rfl h
  · rfl
  · rfl
  · exact absurd rfl h

/-- Whether a rekey of ours is outstanding. -/
def rekeying (m : Machine) : Bool := m.pending.any fun p => p.2.isRekey

def espSuites (m : Machine) : List EspSuite := enabledSuites m.cfg.espSuites Session.espSuites

def ikeSuites (m : Machine) : List IkeSuite := enabledSuites m.cfg.ikeSuites Session.ikeSuites

end Machine

/-- A cached response covers the Message ID. -/
def PeerDedup.covers (dd : PeerDedup) (msgID : UInt32) : Prop := dd.set = true ∧ msgID ≤ dd.msgID

/-! ## The contents of messages -/

/-- `raw` is an encoding under the SA. -/
def Seals (c : Crypto) (ctx : IkeCtx) (exchange : ExchangeType) (flags : Flags) (msgID : UInt32)
    (inner : Payloads) (raw : Bytes) : Prop :=
  ∃ rand sa', encodeSKWith c ctx.sa rand ctx.spii ctx.spir exchange flags msgID inner = (.ok raw, sa')

/-- What a request of ours contains, for each kind of exchange. -/
inductive Asks (c : Crypto) (m : Machine) : ExchangeKind → ExchangeType → Payloads → Prop
  | dpd : Asks c m .dpd exchangeInformational []
  | delete (spi : UInt32) : Asks c m .delete exchangeInformational
      [.delete { protocol := protocolESP, spis := [putUint32 spi] }]
  | childRekey (ctx : ChildRekeyCtx) (newSPI : Bytes) (hspi : uint32 newSPI = .ok ctx.newInSPI)
      (hlen : newSPI.length = 4) (hni : ctx.ni.length = nonceLen)
      (hdh : ∀ dh, ctx.dh = some dh → ∃ group rand, newDH c group rand = .ok dh)
      (hold : ∃ child, m.child = some child ∧ child.initiatorSPI = ctx.oldInSPI)
      (hflag : m.reestablish = ctx.reestablish) :
      Asks c m (.childRekey ctx) exchangeCreateChildSA
        (childRekeyRequest m.espSuites m.cfg.requestIPv6 ctx.oldInSPI ctx.reestablish newSPI ctx.ni
          ctx.dh)
  | ikeRekey (ctx : IkeRekeyCtx) (hni : ctx.ni.length = nonceLen)
      (hdh : ∃ group rand, newDH c group rand = .ok ctx.dh) :
      Asks c m (.ikeRekey ctx) exchangeCreateChildSA
        (ikeRekeyRequest m.ikeSuites (putUint64 ctx.newSPIi) ctx.ni ctx.dh)

/-- An answer that changes nothing: the acknowledgement of an informational request,
or an error notify. -/
inductive Declines : ExchangeType → Payloads → Prop
  | ack : Declines exchangeInformational []
  | notify (n : NotifyPayload) (herror : n.type.isError = true) (hspi : n.spi = [])
      (hdata : n.data.length ≤ 2) : Declines exchangeCreateChildSA [.notify n]

/-- The key exchange of an answer to a request. -/
inductive Agrees (c : Crypto) : Option KEPayload → Option (DH × Bytes) → Prop
  | plain : Agrees c none none
  | pfs {ke : KEPayload} {rand : RandRead} {dh : DH} {shared : Bytes}
      (hdh : newDH c ke.group rand = .ok dh) (hshared : dh.shared c ke.data = .ok shared) :
      Agrees c (some ke) (some (dh, shared))

/-- The answer that accepts the Child SA of a request under the SA `sa`, and what is
installed for it. -/
inductive AcceptsChild (c : Crypto) (m : Machine) (sa : IKESA) (inner : Payloads) :
    Payloads → ChildSAUpdate → Prop
  | intro {req : ChildRekeyRequest} {prop : Proposal} {suite : EspSuite}
      {pfs : Option (DH × Bytes)} {newSPI nr : Bytes} {newInSPI serverNewSPI : UInt32}
      {keys : ChildKeys} {oldInSPI : UInt32}
      (hold : ∃ child, m.child = some child ∧ child.initiatorSPI = oldInSPI)
      (hreq : childRekeyRequestPayloads inner = .ok req)
      (hselect : selectProposal req.sa m.espSuites ((req.ke.map KEPayload.group).getD 0) =
        some (prop, suite))
      (hspi : uint32 prop.spi = .ok serverNewSPI) (hpfs : Agrees c req.ke pfs)
      (hnew : uint32 newSPI = .ok newInSPI) (hlen : newSPI.length = 4) (hnr : nr.length = nonceLen)
      (hkeys : sa.deriveChildKeys c ((pfs.map Prod.snd).getD []) req.ni nr suite.encrKeyLen
        suite.integKeyLen = .ok keys) :
      AcceptsChild c m sa inner
        (childRekeyAnswer m.cfg.requestIPv6 prop.number suite newSPI nr (pfs.map Prod.fst) req)
        { newInSPI, newOutSPI := serverNewSPI, oldInSPI, suite := suite.id,
          outEncr := keys.encrRI, outInteg := keys.integRI,
          inEncr := keys.encrIR, inInteg := keys.integIR }

/-- The Child SA of an update we answered with. -/
def ChildSAUpdate.answeredChild (u : ChildSAUpdate) : ChildSA where
  initiatorSPI := u.newInSPI
  responderSPI := u.newOutSPI
  suite := u.suite
  keys := { encrIR := u.inEncr, integIR := u.inInteg, encrRI := u.outEncr, integRI := u.outInteg }

/-- The answer that accepts the IKE SA of a request, and the new SA. -/
inductive AcceptsIKE (c : Crypto) (m : Machine) (inner : Payloads) : Payloads → IkeCtx → Prop
  | intro {saP : SAPayload} {ni : Bytes} {kei : KEPayload} {prop : Proposal} {suite : IkeSuite}
      {rand : RandRead} {dh : DH} {shared nr : Bytes} {spii spir : UInt64} {newIKE : IKESA}
      (hreq : ikeRekeyPayloads inner = .ok (saP, ni, kei))
      (hselect : selectProposal saP m.ikeSuites kei.group = some (prop, suite))
      (hspi : uint64 prop.spi = .ok spii) (hdh : newDH c kei.group rand = .ok dh)
      (hshared : dh.shared c kei.data = .ok shared) (hnr : nr.length = nonceLen)
      (hnew : deriveRekeyIKE c suite.id m.ike.sa.skd .responder spii spir ni nr shared =
        .ok newIKE) :
      AcceptsIKE c m inner (ikeRekeyAnswer prop.number suite (putUint64 spir) nr dh)
        { sa := newIKE, spii, spir }

/-! ## Moves -/

/-- What a run of the machine may do beyond its conditions. -/
structure Rules where
  /-- The messages that may come in. -/
  recv : Machine → Msg → Prop
  /-- A refused replacement of a deleted Child SA may be forgotten. -/
  lost : Prop
  /-- A Child SA may be accepted while the replacement of the last one is still due. -/
  stale : Prop
  /-- The loop may end, and make a request although one is outstanding. -/
  closing : Prop

/-- The message in hand is a response to the outstanding exchange. -/
structure Machine.Replies (m : Machine) (x : Msg) (kind : ExchangeKind) : Prop where
  msg : m.msg = some x
  opened : m.opened = false
  slot : x.slot = .cur
  exchange : x.exchange = exchangeCreateChildSA
  response : x.flags.isResponse = true
  pending : m.pending = some (x.msgID, kind)

/-- The message in hand is a request that is being processed. -/
structure Machine.Processes (m : Machine) (x : Msg) : Prop where
  msg : m.msg = some x
  opened : m.opened = true
  busy : m.busy = true
  request : x.flags.isResponse = false

def startEvents : ExchangeKind → List Event
  | .childRekey ctx => [.started ctx.reestablish]
  | _ => []

/-- The flags of a response under an SA. -/
def answerFlags (ctx : IkeCtx) : Flags := ikeRoleBit ctx.sa.role ||| flagResponse

inductive Move (c : Crypto) (r : Rules) : Machine → Machine → Prop
  /-- A message comes in. -/
  | receive {m : Machine} (x : Msg) (hrecv : r.recv m x) (hopened : m.opened = false) :
      Move c r m { m with msg := some x }
  /-- The message in hand is done with. -/
  | finish {m : Machine} (hopened : m.opened = false) : Move c r m { m with msg := none }
  /-- The request in hand is taken up. -/
  | takeUp {m : Machine} {x : Msg} (hmsg : m.msg = some x) (hreq : x.flags.isResponse = false)
      (hopened : m.opened = false) (hfresh : ¬ (m.dedup x.slot).covers x.msgID) :
      Move c r m (({ m with opened := true, busy := true } : Machine).push
        [.handling x.slot x.msgID])
  /-- The processing of the request in hand is over. -/
  | handled {m : Machine} (hbusy : m.busy = true → Event.unanswered ∈ m.log) :
      Move c r m (({ m with opened := false, busy := false } : Machine).push [.handled])
  | unanswered {m : Machine} : Move c r m (m.push [.unanswered])
  | dead {m : Machine} : Move c r m (m.push [.dead])
  /-- A request of ours is sent and becomes the outstanding exchange. -/
  | request {m : Machine} {kind : ExchangeKind} {exchange : ExchangeType} {inner : Payloads}
      {ctx : IkeCtx} {raw : Bytes} (hidle : m.pending = none)
      (hopened : m.opened = true → m.busy = true) (hctx : ctx.keys = m.ike)
      (hasks : Asks c m kind exchange inner)
      (hraw : Seals c ctx exchange (ikeRoleBit ctx.sa.role) m.messageID inner raw) :
      Move c r m (({ m with messageID := m.messageID + 1,
                            pending := some (m.messageID, kind) } : Machine).push
        (startEvents kind ++
          [.requested m.messageID raw true,
           .sealed .cur ctx exchange (ikeRoleBit ctx.sa.role) m.messageID inner raw]))
  /-- The delete of the current IKE SA is sent, without waiting for its answer. -/
  | notice {m : Machine} {ctx : IkeCtx} {raw : Bytes} (idle : Bool)
      (hidle : idle = false → r.closing) (hctx : ctx.keys = m.ike)
      (hraw : Seals c ctx exchangeInformational (ikeRoleBit ctx.sa.role) m.messageID
        [.delete { protocol := protocolIKE }] raw) :
      Move c r m (({ m with messageID := m.messageID + 1 } : Machine).push
        [.requested m.messageID raw idle,
         .sealed .cur ctx exchangeInformational (ikeRoleBit ctx.sa.role) m.messageID
          [.delete { protocol := protocolIKE }] raw])
  /-- A request of ours is sent again. -/
  | resent {m : Machine} (slot : Slot) (msgID : UInt32) (raw : Bytes) :
      Move c r m (m.push [.resent slot msgID raw])
  /-- A probe, a delete or an IKE SA exchange of ours ends without effect. -/
  | drop {m : Machine} {msgID : UInt32} {kind : ExchangeKind} (hopened : m.opened = false)
      (hpending : m.pending = some (msgID, kind))
      (hkind : ∀ ctx, kind ≠ .childRekey ctx) : Move c r m { m with pending := none }
  /-- A Child SA exchange of ours is given up. -/
  | abandon {m : Machine} {msgID : UInt32} {ctx : ChildRekeyCtx} (hopened : m.opened = false)
      (hpending : m.pending = some (msgID, .childRekey ctx)) :
      Move c r m { m with pending := none, reestablish := m.reestablish || ctx.reestablish }
  /-- A Child SA exchange of ours ends in a response we cannot use. -/
  | refused {m : Machine} {x : Msg} {ctx : ChildRekeyCtx} (hreply : m.Replies x (.childRekey ctx))
      (hlost : ctx.reestablish = true → m.reestablish = false → r.lost) :
      Move c r m { m with pending := none }
  /-- A Child SA exchange of ours is completed. -/
  | complete {m : Machine} {x : Msg} {ctx : ChildRekeyCtx} {respSPI : UInt32} {suite : EspSuite}
      {keys : ChildKeys} (hreply : m.Replies x (.childRekey ctx))
      (hresult : childRekeyResult c m.espSuites m.ike.sa ctx x.inner = .ok (respSPI, suite, keys)) :
      Move c r m (({ m with
          pending := none, reestablish := false
          child := some { initiatorSPI := ctx.newInSPI, responderSPI := respSPI,
                          suite := suite.id, keys } } : Machine).push
        [.install .initiator .cur x.msgID
          { newInSPI := ctx.newInSPI, newOutSPI := respSPI, oldInSPI := ctx.oldInSPI,
            suite := suite.id, outEncr := keys.encrIR, outInteg := keys.integIR,
            inEncr := keys.encrRI, inInteg := keys.integRI }])
  /-- An IKE SA exchange of ours is completed. -/
  | completeIKE {m : Machine} {x : Msg} {ctx : IkeRekeyCtx} {newSPIr : UInt64} {newIKE : IKESA}
      (hreply : m.Replies x (.ikeRekey ctx))
      (hresult : ikeRekeyResult c m.ikeSuites m.ike.sa.skd ctx x.inner = .ok (newSPIr, newIKE)) :
      Move c r m ((({ m with msg := none } : Machine).swap
          { sa := newIKE, spii := ctx.newSPIi, spir := newSPIr }).push
        [.cutover .initiator x.msgID { sa := newIKE, spii := ctx.newSPIi, spir := newSPIr }])
  /-- A request is answered without effect. -/
  | answer {m : Machine} {x : Msg} {ctx : IkeCtx} {inner : Payloads} {raw : Bytes}
      (hreq : m.Processes x) (hctx : m.ctx x.slot = some ctx.keys)
      (hinner : Declines x.exchange inner)
      (hraw : Seals c ctx x.exchange (answerFlags ctx) x.msgID inner raw) :
      Move c r m ((({ m with busy := false } : Machine).record x.slot x.msgID raw).push
        [.answered x.slot x.msgID raw,
         .sealed x.slot ctx x.exchange (answerFlags ctx) x.msgID inner raw])
  /-- A Child SA of the peer is accepted. -/
  | accept {m : Machine} {x : Msg} {ctx : IkeCtx} {resp : Payloads} {u : ChildSAUpdate}
      {raw : Bytes} (hreq : m.Processes x)
      (hexchange : x.exchange = exchangeCreateChildSA) (hctx : m.ctx x.slot = some ctx.keys)
      (hpending : m.rekeying = false) (hstale : m.reestablish = true → r.stale)
      (haccept : AcceptsChild c m ctx.sa x.inner resp u)
      (hraw : Seals c ctx exchangeCreateChildSA (answerFlags ctx) x.msgID resp raw) :
      Move c r m ((({ m with busy := false, child := some u.answeredChild } : Machine).record x.slot
          x.msgID raw).push
        [.answered x.slot x.msgID raw, .install .responder x.slot x.msgID u,
         .sealed x.slot ctx exchangeCreateChildSA (answerFlags ctx) x.msgID resp raw])
  /-- An IKE SA of the peer is accepted. -/
  | acceptIKE {m : Machine} {x : Msg} {ctx new : IkeCtx} {resp : Payloads} {raw : Bytes}
      (hreq : m.Processes x) (hslot : x.slot = .cur) (hexchange : x.exchange = exchangeCreateChildSA)
      (hctx : ctx.keys = m.ike) (hpending : m.rekeying = false)
      (haccept : AcceptsIKE c m x.inner resp new)
      (hraw : Seals c ctx exchangeCreateChildSA (answerFlags ctx) x.msgID resp raw) :
      Move c r m (((({ m with busy := false, msg := none } : Machine).record .cur x.msgID raw).swap
          new).push
        [.cutover .responder x.msgID new, .answered .cur x.msgID raw,
         .sealed .cur ctx exchangeCreateChildSA (answerFlags ctx) x.msgID resp raw])
  /-- The peer deletes the live Child SA. -/
  | childDeleted {m : Machine} {child : ChildSA} (hchild : m.child = some child) :
      Move c r m (({ m with reestablish := true } : Machine).push [.childDeleted child])
  /-- The replacement of a deleted Child SA is under way. -/
  | lower {m : Machine} {msgID : UInt32} {ctx : ChildRekeyCtx}
      (hpending : m.pending = some (msgID, .childRekey ctx)) (hctx : ctx.reestablish = true) :
      Move c r m { m with reestablish := false }
  /-- The grace period of the superseded SA is over. -/
  | expire {m : Machine} (hmsg : m.msg = none) : Move c r m { m with old := none, oldPeer := {} }

end GoIpsec.Session
