import GoIpsec.Lib.Proc
import GoIpsec.Session.Protected
import GoIpsec.Session.Suite

/-!
# The state of a session

The fields the control loop of an established session reads and writes, and the
effects it has on the outside.

A step of the loop runs in an environment (`Env`) that answers what the step asks
the outside for: the clocks, the random source, whether a datagram was sent, and
the two reports of the data plane.  Nothing is assumed of the answers.  What the
step did is kept beside the session (`Drive`): the datagrams it handed to the
transport, and a log of the events the properties of runs speak of.  The log is
written and never read by the loop.
-/

set_option linter.dupNamespace false

namespace GoIpsec.Session

open Golang Ikemsg Ikesa

/-! ## Time -/

/-- A point in time in nanoseconds.  The zero time is 0. -/
abbrev Time := Nat

/-- A duration in nanoseconds. -/
abbrev Duration := Int

def second : Duration := 1000000000
def minute : Duration := 60 * second

def Time.add (t : Time) (d : Duration) : Time := (t + d).toNat

def Time.after (t u : Time) : Bool := decide (u < t)
def Time.before (t u : Time) : Bool := decide (t < u)
def Time.sub (t u : Time) : Duration := (t : Int) - u
def Time.isZero (t : Time) : Bool := t == 0

/-! ## Sessions -/

structure Config where
  dpdTimeout : Duration := 0
  rekeyLifetime : Duration := 0
  ikeRekeyLifetime : Duration := 0
  rekeyMaxPackets : UInt32 := 0
  espSuites : List Esp.Suite := []
  ikeSuites : List Ikesa.Suite := []
  requestIPv6 : Bool := false
  retransmitBase : Duration := 0
  retransmitMax : Duration := 0
  retransmitTries : Int := 0
deriving Repr, DecidableEq

/-- An IKE SA with its SPIs. -/
structure IkeCtx where
  sa : IKESA
  spii : UInt64
  spir : UInt64
deriving Repr, DecidableEq

structure ChildSA where
  /-- The SPI we receive on. -/
  initiatorSPI : UInt32
  /-- The SPI we send on. -/
  responderSPI : UInt32
  suite : Esp.Suite
  keys : ChildKeys
deriving Repr, DecidableEq

structure ChildRekeyCtx where
  newInSPI : UInt32
  oldInSPI : UInt32
  ni : Bytes
  /-- The exchange replaces a Child SA the peer has deleted. -/
  reestablish : Bool
  dh : Option DH
deriving Repr, DecidableEq

structure IkeRekeyCtx where
  newSPIi : UInt64
  ni : Bytes
  dh : DH
deriving Repr, DecidableEq

/-- The kind of an exchange of ours, with what is needed to complete it. -/
inductive ExchangeKind where
  | dpd
  | childRekey (ctx : ChildRekeyCtx)
  | ikeRekey (ctx : IkeRekeyCtx)
  | delete
deriving Repr, DecidableEq

def ExchangeKind.isRekey : ExchangeKind → Bool
  | .childRekey _ => true
  | .ikeRekey _ => true
  | _ => false

structure PendingExchange where
  kind : ExchangeKind
  msgID : UInt32
  raw : Bytes
  attempts : Nat
  nextRetransmit : Time
  fast : Bool := false
deriving Repr, DecidableEq

/-- The last response we sent to a request of the peer. -/
structure PeerDedup where
  msgID : UInt32 := 0
  set : Bool := false
  resp : Bytes := []
deriving Repr, DecidableEq

structure Session where
  cfg : Config
  initiatorSPI : UInt64
  responderSPI : UInt64
  ikeSA : IKESA
  messageID : UInt32
  child : Option ChildSA
  nattMode : Bool
  /-- Whether a data plane is wired. -/
  dataPlane : Bool
  pending : Option PendingExchange := none
  lastInbound : Time := 0
  lastTickWall : Time := 0
  fastDPDDue : Bool := false
  childInstalledAt : Time := 0
  ikeInstalledAt : Time := 0
  nextChildRekey : Time := 0
  nextIKERekey : Time := 0
  nextVolumeRekey : Time := 0
  oldIKE : Option IkeCtx := none
  oldIKEUntil : Time := 0
  childReestablish : Bool := false
  nextChildReestablish : Time := 0
  childPFS : Bool
  ikeDHGroup : UInt16
  childPFSGroup : UInt16 := 0
  peer : PeerDedup := {}
  oldPeer : PeerDedup := {}
  oldIKEDelete : Option PendingExchange := none
deriving Repr, DecidableEq

/-- One of the two IKE SAs a session can decode under. -/
inductive Slot where
  | cur
  | old
deriving Repr, DecidableEq

/-- The IKE SA of a slot, with its SPIs. -/
def Session.ctx (s : Session) : Slot → Option IkeCtx
  | .cur => some { sa := s.ikeSA, spii := s.initiatorSPI, spir := s.responderSPI }
  | .old => s.oldIKE

/-- Put the SA of a slot back after its IV counter has advanced. -/
def Session.setSA (s : Session) (slot : Slot) (sa : IKESA) : Session :=
  match slot with
  | .cur => { s with ikeSA := sa }
  | .old => { s with oldIKE := s.oldIKE.map fun ctx => { ctx with sa } }

/-- The response cache of a slot. -/
def Session.dedup (s : Session) : Slot → PeerDedup
  | .cur => s.peer
  | .old => s.oldPeer

def Session.enabledESPSuites (s : Session) : List EspSuite := enabledSuites s.cfg.espSuites espSuites
def Session.enabledIKESuites (s : Session) : List IkeSuite := enabledSuites s.cfg.ikeSuites ikeSuites

/-! ## Effects -/

/-- A Child SA for the data plane, with the keys oriented for this end. -/
structure ChildSAUpdate where
  newInSPI : UInt32
  newOutSPI : UInt32
  oldInSPI : UInt32
  suite : Esp.Suite
  outEncr : Bytes
  outInteg : Bytes
  inEncr : Bytes
  inInteg : Bytes
deriving Repr, DecidableEq

/-- What the log of a run keeps.  `role` is the part we have in the exchange. -/
inductive Event where
  /-- The control loop starts with this IKE SA. -/
  | established (ctx : IkeCtx)
  /-- A message was encoded under the SA of a slot. -/
  | sealed (slot : Slot) (ctx : IkeCtx) (exchange : ExchangeType) (flags : Flags) (msgID : UInt32)
      (inner : Payloads) (raw : Bytes)
  /-- A request of ours was made.  `idle` tells that none was outstanding then. -/
  | requested (msgID : UInt32) (raw : Bytes) (idle : Bool)
  /-- The request of ours that is outstanding under the SA of a slot was sent again. -/
  | resent (slot : Slot) (msgID : UInt32) (raw : Bytes)
  /-- A request of the peer was taken up for processing. -/
  | handling (slot : Slot) (msgID : UInt32)
  /-- The processing of the request is over. -/
  | handled
  /-- A response was cached. -/
  | answered (slot : Slot) (msgID : UInt32) (raw : Bytes)
  /-- The response to a request could not be encoded. -/
  | unanswered
  | install (role : Role) (slot : Slot) (msgID : UInt32) (u : ChildSAUpdate)
  | cutover (role : Role) (msgID : UInt32) (ctx : IkeCtx)
  /-- A Child SA exchange of ours was started. -/
  | started (reestablish : Bool)
  /-- The peer deleted the live Child SA. -/
  | childDeleted (child : ChildSA)
  /-- `onDead` was called. -/
  | dead
deriving Repr, DecidableEq

/-- An IKE SA of a session: the cutovers that led to it, newest first, each with our
part in it and its Message ID. -/
abbrev Lineage := List (Role × UInt32)

/-- The IKE SA of a slot, if `g` is the current one. -/
def Lineage.at (g : Lineage) : Slot → Lineage
  | .cur => g
  | .old => g.tail

/-- The current IKE SA. -/
def lineage : List Event → Lineage
  | [] => []
  | .cutover role msgID _ :: log => (role, msgID) :: lineage log
  | _ :: log => lineage log

/-- The places at which a step reads the clock. -/
inductive Reading where
  | decode
  | inbound
  | tick
  | request
  | install
  | cutover
deriving Repr, DecidableEq

/-- A lifetime times the factor `0.85 + 0.15 * n / 65536`, cut to whole nanoseconds. -/
def exactScaled (lifetime : Duration) (n : Nat) : Duration :=
  lifetime * (85 * 65536 + 15 * n) / (100 * 65536)

/-- The same in floating point.  How the product is rounded is left open: it is off by a nanosecond,
or by a little more if the lifetime is one of weeks. -/
structure Scaling where
  scaled : Duration → Nat → Duration
  nonneg : ∀ lifetime n, 0 < lifetime → n < 65536 → 0 ≤ scaled lifetime n
  below : ∀ lifetime n, 0 < lifetime → n < 65536 → scaled lifetime n < lifetime
  close : ∀ lifetime n, 0 < lifetime → n < 65536 →
    exactScaled lifetime n ≤ scaled lifetime n + (1 + lifetime / 2 ^ 50) ∧
      scaled lifetime n ≤ exactScaled lifetime n + (1 + lifetime / 2 ^ 50)

/-- No rounding at all. -/
def Scaling.exact : Scaling where
  scaled := exactScaled
  nonneg lifetime n hpos _ :=
    Int.ediv_nonneg (Int.mul_nonneg (Int.le_of_lt hpos) (by omega)) (by decide)
  below lifetime n hpos hn :=
    Int.ediv_lt_of_lt_mul (by decide) (Int.mul_lt_mul_of_pos_left (by omega) hpos)
  close lifetime n hpos _ := by
    have hslack : 0 ≤ 1 + lifetime / 2 ^ 50 :=
      Int.add_nonneg (by decide) (Int.ediv_nonneg (Int.le_of_lt hpos) (by decide))
    exact ⟨Int.le_add_of_nonneg_right hslack, Int.le_add_of_nonneg_right hslack⟩

/-- The answers of the outside to one step. -/
structure Env where
  clock : Reading → Time
  /-- The wall clock, which goes on while the host is suspended. -/
  wall : Time
  /-- The outcome of the nth random read of the run. -/
  rand : Nat → RandRead
  /-- What floating point makes of a lifetime that is scaled. -/
  scaling : Scaling
  /-- Whether the nth datagram of the run is sent. -/
  sendOK : Nat → Bool
  lastDataInbound : Time
  childSAVolume : UInt32

/-- A session in a run. -/
structure Drive where
  s : Session
  /-- The number of random reads so far. -/
  reads : Nat := 0
  /-- The datagrams handed to the transport, newest first. -/
  sent : List Bytes := []
  /-- The events, newest first. -/
  log : List Event := []
  /-- For each value of an IV counter that was used up, the IKE SA it is of, newest
  first. -/
  spent : List Lineage := []
deriving Repr, DecidableEq

abbrev Drv := Proc Drive

def session : Drv Session := fun d => (.ok d.s, d)

def setSession (f : Session → Session) : Drv Unit := fun d => (.ok (), { d with s := f d.s })

def emit (e : Event) : Drv Unit := fun d => (.ok (), { d with log := e :: d.log })

/-- Return an error. -/
def raise {α : Type} (text : String) : Drv α := Proc.lift (fail text)

section

variable (c : Crypto) (env : Env)

def randRead : Drv RandRead := fun d => (.ok (env.rand d.reads), { d with reads := d.reads + 1 })

def randBytes (n : Nat) : Drv Bytes := do Proc.lift ((← randRead env).full n)

def randUint64 : Drv UInt64 := do
  let b ← randBytes env 8
  Proc.lift (uint64 b)

def newDHFor (group : UInt16) : Drv DH := do Proc.lift (newDH c group (← randRead env))

/-- Prepend the non-ESP marker. -/
def wrapIKE (ike : Bytes) : Bytes := [0, 0, 0, 0] ++ ike

/-- What the transport is handed for an IKE message. -/
def Session.frame (s : Session) (ike : Bytes) : Bytes := if s.nattMode then wrapIKE ike else ike

def sendDatagram (ike : Bytes) : Drv Unit := fun d =>
  (if env.sendOK d.sent.length then .ok () else fail "transport: send failed",
    { d with sent := d.s.frame ike :: d.sent })

/-- An encoding takes one random read, and has left the SA of a slot as `sa'`. -/
def Drive.spend (d : Drive) (slot : Slot) (sa sa' : IKESA) : Drive :=
  { d with
    s := d.s.setSA slot sa'
    reads := d.reads + 1
    spent := if sa'.skSeq = sa.skSeq then d.spent else (lineage d.log).at slot :: d.spent }

/-- Encrypt under the SA of a slot. -/
def encodeIn (slot : Slot) (exchange : ExchangeType) (flags : Flags) (msgID : UInt32)
    (inner : Payloads) : Drv Bytes := fun d =>
  match d.s.ctx slot with
  | none => (.error .panic, d)
  | some ctx =>
      let r := encodeSKWith c ctx.sa (env.rand d.reads) ctx.spii ctx.spir exchange flags msgID inner
      let d' := d.spend slot ctx.sa r.2
      match r.1 with
      | .error e => (.error e, d')
      | .ok raw =>
          (.ok raw, { d' with log := .sealed slot ctx exchange flags msgID inner raw :: d.log })

/-- Encrypt a message without inner payloads under the SA of a slot. -/
def encodeEmptyIn (slot : Slot) (exchange : ExchangeType) (flags : Flags) (msgID : UInt32) :
    Drv Bytes := fun d =>
  match d.s.ctx slot with
  | none => (.error .panic, d)
  | some ctx =>
      let r := encodeSKEmptyWith c ctx.sa (env.rand d.reads) ctx.spii ctx.spir exchange flags msgID
      let d' := d.spend slot ctx.sa r.2
      match r.1 with
      | .error e => (.error e, d')
      | .ok raw =>
          (.ok raw, { d' with log := .sealed slot ctx exchange flags msgID [] raw :: d.log })

def encodeSK (exchange : ExchangeType) (flags : Flags) (msgID : UInt32) (inner : Payloads) :
    Drv Bytes :=
  encodeIn c env .cur exchange flags msgID inner

def encodeSKEmpty (exchange : ExchangeType) (flags : Flags) (msgID : UInt32) : Drv Bytes :=
  encodeEmptyIn c env .cur exchange flags msgID

/-- Decode under the current SA, or else, while the grace period lasts, under the
superseded one. -/
def Session.decodeIKE (s : Session) (raw : Bytes) : Go (Message × Payloads × Slot) :=
  match decodeSKWith c s.ikeSA raw with
  | (.ok (m, inner), _) => .ok (m, inner, .cur)
  | (.error (.err text), icvOK) =>
      match s.oldIKE with
      | none => .error (.err text)
      | some old =>
          if !icvOK && (env.clock .decode).before s.oldIKEUntil then
            match decodeSKWith c old.sa raw with
            | (.ok (m, inner), _) => .ok (m, inner, .old)
            | (.error (.err _), _) => .error (.err text)
            | (.error e, _) => .error e
          else .error (.err text)
  | (.error e, _) => .error e

end

end GoIpsec.Session
