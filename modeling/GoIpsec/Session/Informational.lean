import GoIpsec.Session.Rekey

/-!
# The control loop

The loop of an established session.  It takes one input at a time: a datagram from
the peer, a tick of the timer, or the end of the session.  It answers the requests
of the peer, completes exchanges of ours, and on a tick retransmits, rekeys, replaces
a Child SA the peer has deleted, and probes a silent peer.

At most one exchange of ours is outstanding.  A request of the peer is taken up once
per IKE SA and Message ID (`dedupPeerRequest`): a later copy is answered from the
cache or dropped.
-/

set_option linter.dupNamespace false

namespace GoIpsec.Session

open Golang Ikemsg Ikesa

def rekeyRetryInterval : Duration := minute
def suspendThreshold : Duration := 5 * second
def fastDPDBase : Duration := 1 * second
def fastDPDTries : Int := 2

/-! ## Settings -/

def Session.retransmitMax (s : Session) : Duration :=
  if s.cfg.retransmitMax > 0 then s.cfg.retransmitMax else 30 * second

def Session.retransmitTries (s : Session) : Int :=
  if s.cfg.retransmitTries > 0 then s.cfg.retransmitTries else 5

def Session.dpdInterval (s : Session) : Duration :=
  if s.cfg.dpdTimeout > 0 then s.cfg.dpdTimeout else 30 * second

def defaultRekeyMaxPackets : UInt32 := (1 : UInt32) <<< 31

def Session.rekeyMaxPackets (s : Session) : UInt32 :=
  if s.cfg.rekeyMaxPackets > 0 then s.cfg.rekeyMaxPackets else defaultRekeyMaxPackets

/-- Double `d` for each of `n` attempts, up to `max`. -/
def backoffFrom (max : Duration) : Nat → Duration → Duration
  | 0, d => d
  | n + 1, d => if d * 2 ≥ max then max else backoffFrom max n (d * 2)

/-- The delay before attempt `attempt` is repeated. -/
def Session.retransBackoff (s : Session) (attempt : Nat) : Duration :=
  backoffFrom s.retransmitMax (attempt - 1) s.retransmitBase

def Session.pendingTries (s : Session) (p : PendingExchange) : Int :=
  if p.fast then fastDPDTries else s.retransmitTries

def Session.pendingBackoff (s : Session) (p : PendingExchange) (attempt : Nat) : Duration :=
  if p.fast then fastDPDBase else s.retransBackoff attempt

section

variable (c : Crypto) (env : Env)

/-- `onDead`. -/
def onDead : Drv Unit := emit .dead

/-- Send an empty request that the peer must answer. -/
def initiateDPD (fast : Bool) : Drv Unit := do
  let s ← session
  request env .dpd (if fast then fastDPDBase else s.retransmitBase) fast fun flags msgID =>
    encodeSKEmpty c env exchangeInformational flags msgID

/-! ## Responses of the peer -/

/-- An informational response ends a probe or a delete of ours. -/
def clearPending (msgID : UInt32) : Drv Unit :=
  setSession fun s =>
    match s.pending with
    | some p => if p.msgID = msgID ∧ p.kind.isRekey = false then { s with pending := none } else s
    | none => s

def clearOldIKEDelete (msgID : UInt32) : Drv Unit :=
  setSession fun s =>
    match s.oldIKEDelete with
    | some p => if p.msgID = msgID then { s with oldIKEDelete := none } else s
    | none => s

/-- A response to a rekey of ours.  One under the superseded SA is stale. -/
def completeMatchingRekey (msgID : UInt32) (inner : Payloads) (slot : Slot) : Drv Unit :=
  match slot with
  | .old => return ()
  | .cur => do
      match (← session).pending with
      | none => return ()
      | some p =>
          if p.msgID ≠ msgID then return ()
          else
            match p.kind with
            | .childRekey ctx => do
                setSession fun s => { s with pending := none }
                let err ← Proc.attempt (completeChildRekey c env inner p.msgID ctx)
                match err with
                | some _ => return ()
                | none =>
                    let s ← session
                    let deadline ← jitteredDeadline env s.childInstalledAt s.cfg.rekeyLifetime
                    setSession fun s => { s with nextChildRekey := deadline }
            | .ikeRekey ctx => do
                setSession fun s => { s with pending := none }
                let _ ← Proc.attempt (completeIKERekey c env inner p.msgID ctx)
                return ()
            | _ => return ()

/-! ## Requests of the peer -/

/-- Whether the request has been answered.  The last answer is sent again. -/
def dedupPeerRequest (msgID : UInt32) (slot : Slot) : Drv Bool := do
  let dd := (← session).dedup slot
  if dd.set ∧ msgID ≤ dd.msgID then
    if msgID = dd.msgID then
      let _ ← Proc.attempt (sendDatagram env dd.resp)
      return true
    else return true
  else return false

/-- Whether a delete names the live Child SA by one of its SPIs. -/
def deleteRefsChild (d : DeletePayload) (child : ChildSA) : Bool :=
  d.spis.any fun raw =>
    raw.length == 4 &&
      match uint32 raw with
      | .ok spi => spi == child.responderSPI || spi == child.initiatorSPI
      | .error _ => false

/-- The peer deletes Child SAs.  If the live one is among them, a fresh one is asked
for now, or from a later tick if that cannot be done now. -/
def handleInboundChildDelete (d : DeletePayload) : Drv Unit := do
  let s ← session
  match s.child with
  | none => return ()
  | some child =>
      if !s.dataPlane || d.spiSize != 4 || !deleteRefsChild d child then return ()
      else do
        emit (.childDeleted child)
        match s.pending with
        | some _ => setSession fun s => { s with childReestablish := true }
        | none => do
            let err ← Proc.attempt (initiateChildRekey c env true)
            match err with
            | some _ => setSession fun s => { s with childReestablish := true }
            | none => setSession fun s =>
                { s with childReestablish := false, nextChildReestablish := 0 }

/-- Act on the delete payloads of a request and tell whether one of them ends the
current IKE SA. -/
def handleDeletes (slot : Slot) : Payloads → Bool → Drv Bool
  | [], teardown => return teardown
  | .delete d :: ps, teardown =>
      if d.protocol = protocolIKE then handleDeletes slot ps (teardown || slot == .cur)
      else if d.protocol = protocolESP then do
        handleInboundChildDelete c env d
        handleDeletes slot ps teardown
      else handleDeletes slot ps teardown
  | _ :: ps, teardown => handleDeletes slot ps teardown

/-- Answer an informational request and tell whether it ends the session. -/
def handleInformationalRequest (msgID : UInt32) (inner : Payloads) (slot : Slot) : Drv Bool := do
  let teardown ← handleDeletes c env slot inner false
  let flags ← responseFlags slot
  answerWith env slot msgID (encodeEmptyIn c env slot exchangeInformational flags msgID)
  return teardown

/-- Answer a CREATE_CHILD_SA request.  One that meets a rekey of ours, or rekeys the
IKE SA under the superseded one, is put off. -/
def handleCreateChildSA (msgID : UInt32) (inner : Payloads) (slot : Slot) : Drv Unit := do
  let s ← session
  if s.pending.any fun p => p.kind.isRekey then sendTemporaryFailure c env slot msgID
  else if isIKERekey inner then
    match slot with
    | .old => sendTemporaryFailure c env slot msgID
    | .cur => do
        let _ ← Proc.attempt (handleIKERekeyRequest c env msgID inner)
        return ()
  else do
    let _ ← Proc.attempt (handleChildRekeyRequest c env msgID inner slot)
    return ()

/-- Take a request up for processing unless it has been answered. -/
def takeUp (msgID : UInt32) (slot : Slot) (process : Drv Bool) : Drv Bool := do
  let duplicate ← dedupPeerRequest env msgID slot
  if duplicate then return false
  else do
    emit (.handling slot msgID)
    let teardown ← process
    emit .handled
    return teardown

/-- Act on one decoded message. -/
def dispatch (hdr : Message) (inner : Payloads) (slot : Slot) : Drv Bool :=
  let msgID := hdr.messageID
  if hdr.exchange = exchangeInformational then
    if hdr.flags.isResponse then do
      match slot with
      | .old => clearOldIKEDelete msgID
      | .cur => clearPending msgID
      return false
    else
      takeUp env msgID slot do
        let teardown ← handleInformationalRequest c env msgID inner slot
        if teardown then do
          onDead
          return true
        else return false
  else if hdr.exchange = exchangeCreateChildSA then
    if hdr.flags.isResponse then do
      completeMatchingRekey c env msgID inner slot
      return false
    else
      takeUp env msgID slot do
        handleCreateChildSA c env msgID inner slot
        return false
  else return false

/-- Take in one datagram.  True ends the loop. -/
def handleInbound (raw : Bytes) : Drv Bool := do
  match (← session).decodeIKE c env raw with
  | .error (.err _) => return false
  | .error e => Proc.lift (.error e)
  | .ok (hdr, inner, slot) => do
      setSession fun s => { s with lastInbound := env.clock .inbound }
      dispatch c env hdr inner slot

/-! ## Timers -/

/-- After a gap of the wall clock the host was suspended: probe the peer now, or
hurry the outstanding exchange and probe when it has ended. -/
def detectSuspend (now : Time) : Drv Unit := do
  let prev := (← session).lastTickWall
  setSession fun s => { s with lastTickWall := env.wall }
  if prev.isZero ∨ env.wall.sub prev ≤ suspendThreshold then return ()
  else
    match (← session).pending with
    | none => do
        let _ ← Proc.attempt (initiateDPD c env true)
        return ()
    | some p => do
        setSession fun s => { s with pending := some { p with fast := true, nextRetransmit := now } }
        match p.kind with
        | .dpd => return ()
        | _ => setSession fun s => { s with fastDPDDue := true }

/-- Forget the superseded IKE SA when its grace period is over. -/
def expireOldIKE (now : Time) : Drv Unit :=
  setSession fun s =>
    if s.oldIKE.isSome ∧ now.after s.oldIKEUntil then
      { s with oldIKE := none, oldPeer := {}, oldIKEDelete := none }
    else s

/-- Repeat the delete of the superseded IKE SA. -/
def retransmitOldIKEDelete (now : Time) : Drv Unit := do
  let s ← session
  match s.oldIKEDelete with
  | none => return ()
  | some p =>
      if s.oldIKE.isNone then setSession fun s => { s with oldIKEDelete := none }
      else if now.after p.nextRetransmit then
        let attempts := p.attempts + 1
        if attempts > s.retransmitTries then setSession fun s => { s with oldIKEDelete := none }
        else do
          setSession fun s => { s with
            oldIKEDelete := some { p with
              attempts, nextRetransmit := now.add (s.retransBackoff attempts) } }
          emit (.resent .old p.msgID p.raw)
          let _ ← Proc.attempt (sendDatagram env p.raw)
          return ()
      else return ()

/-- Whether an exchange replaces a Child SA the peer has deleted. -/
def ExchangeKind.reestablishes : ExchangeKind → Bool
  | .childRekey ctx => ctx.reestablish
  | _ => false

/-- Repeat the outstanding exchange, or give it up.  An unanswered probe ends the
session. -/
def retransmitPending (now : Time) (p : PendingExchange) : Drv Bool := do
  if now.after p.nextRetransmit then
    let s ← session
    let attempts := p.attempts + 1
    if attempts > s.pendingTries p then do
      setSession fun s => { s with pending := none }
      match p.kind with
      | .dpd => do
          onDead
          return true
      | kind => do
          setSession fun s =>
            if kind.reestablishes then
              { s with childReestablish := true
                       nextChildReestablish := now.add rekeyRetryInterval }
            else s
          return false
    else do
      setSession fun s => { s with
        pending := some { p with attempts, nextRetransmit := now.add (s.pendingBackoff p attempts) } }
      emit (.resent .cur p.msgID p.raw)
      let _ ← Proc.attempt (sendDatagram env p.raw)
      return false
  else return false

/-- Ask for a Child SA in place of one the peer has deleted. -/
def runReestablish (now : Time) : Drv Unit := do
  let err ← Proc.attempt (initiateChildRekey c env true)
  match err with
  | some _ => setSession fun s => { s with nextChildReestablish := now.add rekeyRetryInterval }
  | none => setSession fun s => { s with childReestablish := false, nextChildReestablish := 0 }

/-- How long nothing has come from the peer, on the control or the data plane. -/
def Session.idle (s : Session) (now : Time) : Duration :=
  let idle := now.sub s.lastInbound
  if s.dataPlane ∧ !env.lastDataInbound.isZero then
    let d := now.sub env.lastDataInbound
    if d < idle then d else idle
  else idle

/-- The timers that start an exchange when none is outstanding. -/
def startExchange (now : Time) : Drv Unit := do
  let s ← session
  if s.fastDPDDue then do
    setSession fun s => { s with fastDPDDue := false }
    let _ ← Proc.attempt (initiateDPD c env true)
    return ()
  else if s.childReestablish ∧ s.dataPlane ∧ now.after s.nextChildReestablish then
    runReestablish c env now
  else if s.dataPlane ∧ s.childReestablish = false ∧ now.after s.nextVolumeRekey ∧
      env.childSAVolume ≥ s.rekeyMaxPackets then do
    setSession fun s => { s with nextVolumeRekey := now.add rekeyRetryInterval }
    let _ ← Proc.attempt (initiateChildRekey c env false)
    return ()
  else if s.dataPlane ∧ s.cfg.rekeyLifetime > 0 ∧ s.nextIKERekey.isZero = false ∧
      now.after s.nextIKERekey then do
    setSession fun s => { s with nextIKERekey := now.add rekeyRetryInterval }
    let _ ← Proc.attempt (initiateIKERekey c env)
    return ()
  else if s.dataPlane ∧ s.cfg.rekeyLifetime > 0 ∧ s.childReestablish = false ∧
      s.nextChildRekey.isZero = false ∧ now.after s.nextChildRekey then do
    setSession fun s => { s with nextChildRekey := now.add rekeyRetryInterval }
    let _ ← Proc.attempt (initiateChildRekey c env false)
    return ()
  else if s.idle env now > s.dpdInterval then do
    let _ ← Proc.attempt (initiateDPD c env false)
    return ()
  else return ()

/-- One tick of the timer.  True ends the loop. -/
def housekeeping : Drv Bool := do
  let now := env.clock .tick
  detectSuspend c env now
  expireOldIKE now
  retransmitOldIKEDelete env now
  match (← session).pending with
  | some p => retransmitPending env now p
  | none => do
      startExchange c env now
      return false

/-! ## The loop -/

/-- Delete the IKE SA when the session ends. -/
def sendGracefulDelete : Drv Unit := do
  let s ← session
  let raw ← encodeSK c env exchangeInformational (ikeRoleBit s.ikeSA.role) s.messageID
    [.delete { protocol := protocolIKE }]
  noteRequest s.messageID raw
  setSession fun s => { s with messageID := s.messageID + 1 }
  sendDatagram env raw

/-- What the loop waits for. -/
inductive Input where
  | datagram (raw : Bytes)
  | tick
  /-- The context of the loop is cancelled. -/
  | done

/-- One turn of the loop.  True ends it. -/
def driverStep : Input → Drv Bool
  | .datagram raw => handleInbound c env raw
  | .tick => housekeeping c env
  | .done => do
      let _ ← Proc.attempt (sendGracefulDelete c env)
      return true

/-- What the loop does before its first turn. -/
def driverStart : Drv Unit := do
  let now := env.clock .tick
  setSession fun s => { s with
    lastInbound := now
    lastTickWall := env.wall
    childInstalledAt := if s.childInstalledAt.isZero then now else s.childInstalledAt
    ikeInstalledAt := if s.ikeInstalledAt.isZero then now else s.ikeInstalledAt }
  let s ← session
  emit (.established { sa := s.ikeSA, spii := s.initiatorSPI, spir := s.responderSPI })
  let nextChild ← jitteredDeadline env s.childInstalledAt s.cfg.rekeyLifetime
  let nextIKE ← jitteredDeadline env s.ikeInstalledAt s.ikeRekeyLifetime
  setSession fun s => { s with nextChildRekey := nextChild, nextIKERekey := nextIKE }

end

end GoIpsec.Session
