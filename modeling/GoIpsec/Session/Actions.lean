import GoIpsec.Session.Driver

/-!
# What a turn does to the session

The exchange machine leaves out the bytes of the messages and the count of their
repetitions.  Here a turn of the loop is taken apart into actions on the session itself:
a message is encoded, a request becomes the outstanding one, it is repeated, a response
is cached, a datagram is handed to the transport.  Other than a move of the machine, an
action says nothing of why it is done, with one exception: the actions that end a rekey
(`Deed`) are only done in turns whose message permits them.

An invariant of the session that every action keeps holds after every turn, also after
one that does not return.
-/

set_option linter.dupNamespace false

namespace GoIpsec.Session

open Golang Ikemsg Ikesa

/-! ## Actions -/

/-- The part of a session that decides what it sends. -/
structure Core where
  cfg : Config
  initiatorSPI : UInt64
  responderSPI : UInt64
  ikeSA : IKESA
  messageID : UInt32
  nattMode : Bool
  pending : Option PendingExchange
  oldIKE : Option IkeCtx
  peer : PeerDedup
  oldPeer : PeerDedup
  oldIKEDelete : Option PendingExchange

def Session.core (s : Session) : Core where
  cfg := s.cfg
  initiatorSPI := s.initiatorSPI
  responderSPI := s.responderSPI
  ikeSA := s.ikeSA
  messageID := s.messageID
  nattMode := s.nattMode
  pending := s.pending
  oldIKE := s.oldIKE
  peer := s.peer
  oldPeer := s.oldPeer
  oldIKEDelete := s.oldIKEDelete

/-- Events that tell nothing of what is sent. -/
def Event.isPlain : Event → Bool
  | .handling _ _ => true
  | .handled => true
  | .unanswered => true
  | .install _ _ _ _ => true
  | .started _ => true
  | .childDeleted _ => true
  | .dead => true
  | _ => false

/-- What only some messages lead to: the delete of the current IKE SA is kept to be repeated,
a Child SA exchange of ours is completed, an IKE SA takes the place of the current one. -/
inductive Deed where
  | retire
  | finish
  | cutover (role : Role)

/-- The event that tells of a completed Child SA exchange of ours. -/
def Event.finishes : Event → Bool
  | .install .initiator _ _ _ => true
  | _ => false

/-- The message was encoded under the SA of a slot. -/
def Sealed (d : Drive) (slot : Slot) (raw : Bytes) : Prop :=
  ∃ ctx exchange flags msgID inner, Event.sealed slot ctx exchange flags msgID inner raw ∈ d.log

/-- The last thing that happened is that a request of ours was encoded. -/
def Asked (d : Drive) (msgID : UInt32) (raw : Bytes) : Prop :=
  ∃ ctx exchange flags inner rest, d.log = .sealed .cur ctx exchange flags msgID inner raw :: rest

/-- Bytes the session keeps, or has just made, to send them. -/
inductive Held (d : Drive) (raw : Bytes) : Prop
  | pending (p : PendingExchange) (hp : d.s.pending = some p) (hraw : p.raw = raw)
  | oldDelete (p : PendingExchange) (hp : d.s.oldIKEDelete = some p) (hraw : p.raw = raw)
  | cached (slot : Slot) (hset : (d.s.dedup slot).set = true) (hraw : (d.s.dedup slot).resp = raw)
  | noted {msgID : UInt32} {idle : Bool} {rest : List Event}
      (hlog : d.log = .requested msgID raw idle :: rest)

/-- A request of ours is counted. -/
def Drive.note (d : Drive) (raw : Bytes) : Drive :=
  { d with
    s := { d.s with messageID := d.s.messageID + 1 }
    log := .requested d.s.messageID raw d.s.pending.isNone :: d.log }

inductive Action (c : Crypto) (env : Env) (may : Deed → Prop) : Drive → Drive → Prop
  | read {d : Drive} (n : Nat) : Action c env may d { d with reads := n }
  | send {d : Drive} {raw : Bytes} (hraw : Held d raw) :
      Action c env may d { d with sent := d.s.frame raw :: d.sent }
  | encode {d : Drive} (slot : Slot) (exchange : ExchangeType) (flags : Flags) (msgID : UInt32)
      (inner : Payloads) : Action c env may d (encodeIn c env slot exchange flags msgID inner d).2
  | encodeEmpty {d : Drive} (slot : Slot) (exchange : ExchangeType) (flags : Flags)
      (msgID : UInt32) : Action c env may d (encodeEmptyIn c env slot exchange flags msgID d).2
  /-- A request becomes the outstanding one. -/
  | adopt {d : Drive} {raw : Bytes} (p : PendingExchange) (hraw : Asked d p.msgID raw)
      (hid : p.msgID = d.s.messageID) (hp : p.raw = raw) (hfirst : p.attempts = 1) :
      Action c env may d { d.note raw with s := { (d.note raw).s with pending := some p } }
  /-- The delete of the IKE SA that is about to be superseded. -/
  | retire {d : Drive} {raw : Bytes} (p : PendingExchange) (hraw : Asked d p.msgID raw)
      (hid : p.msgID = d.s.messageID) (hp : p.raw = raw) (hfirst : p.attempts = 1)
      (hmay : may .retire) :
      Action c env may d { d.note raw with s := { (d.note raw).s with oldIKEDelete := some p } }
  /-- The delete of the IKE SA at the end of the session. -/
  | part {d : Drive} {raw : Bytes} (hraw : Asked d d.s.messageID raw) : Action c env may d (d.note raw)
  | again {d : Drive} {p : PendingExchange} (next : Time) (hp : d.s.pending = some p)
      (htries : ¬ p.attempts + 1 > d.s.pendingTries p) :
      Action c env may d { d with
        s := { d.s with
          pending := some { p with attempts := p.attempts + 1, nextRetransmit := next } }
        log := .resent .cur p.msgID p.raw :: d.log }
  | againOld {d : Drive} {p : PendingExchange} (next : Time) (hp : d.s.oldIKEDelete = some p)
      (htries : ¬ p.attempts + 1 > d.s.retransmitTries) :
      Action c env may d { d with
        s := { d.s with
          oldIKEDelete := some { p with attempts := p.attempts + 1, nextRetransmit := next } }
        log := .resent .old p.msgID p.raw :: d.log }
  | drop {d : Drive} : Action c env may d { d with s := { d.s with pending := none } }
  | dropOld {d : Drive} : Action c env may d { d with s := { d.s with oldIKEDelete := none } }
  | hurry {d : Drive} {p : PendingExchange} (next : Time) (hp : d.s.pending = some p) :
      Action c env may d { d with
        s := { d.s with pending := some { p with fast := true, nextRetransmit := next } } }
  | record {d : Drive} {slot : Slot} {raw : Bytes} (msgID : UInt32) (hraw : Sealed d slot raw) :
      Action c env may d { d with
        s := d.s.record slot msgID raw, log := .answered slot msgID raw :: d.log }
  | cutover {d : Drive} (role : Role) (msgID : UInt32) (new : IkeCtx) (grace installed : Time)
      (hidle : d.s.pending = none) (hmay : may (.cutover role)) :
      Action c env may d { d with
        s := { d.s with
          oldIKE := d.s.ctx .cur, oldIKEUntil := grace, oldPeer := d.s.peer, peer := {}
          ikeSA := new.sa, initiatorSPI := new.spii, responderSPI := new.spir
          messageID := 0, ikeInstalledAt := installed }
        log := .cutover role msgID new :: d.log }
  | expire {d : Drive} :
      Action c env may d { d with
        s := { d.s with oldIKE := none, oldPeer := {}, oldIKEDelete := none } }
  | tune {d : Drive} {s' : Session} (hsame : s'.core = d.s.core) :
      Action c env may d { d with s := s' }
  | log {d : Drive} {e : Event} (he : e.isPlain = true) (hmay : e.finishes = true → may .finish) :
      Action c env may d { d with log := e :: d.log }

/-- The actions where nothing is said of the message. -/
abbrev Act (c : Crypto) (env : Env) : Drive → Drive → Prop := Action c env fun _ => True

/-- What a call does is a sequence of actions. -/
abbrev Acts {α : Type} (c : Crypto) (env : Env) (may : Deed → Prop) (d : Drive) (x : Drv α)
    (Q : Except String α → Drive → Prop) : Prop :=
  Refines (Action c env may) (fun d (_ : Unit) => d) d () x fun res d' _ => Q res d'

/-- Nothing is said of the outcome. -/
def anyhow {α : Type} (_ : Except String α) (_ : Drive) : Prop := True

section

variable {α β : Type} {c : Crypto} {env : Env} {may : Deed → Prop} {d : Drive}

namespace Acts

theorem pure (a : α) : Acts c env may d (Pure.pure a) anyhow := Refines.pure trivial

theorem lift (x : Go α) : Acts c env may d (Proc.lift x) anyhow :=
  Refines.lift (Ends.intro (fun _ => trivial) x)

theorem any {x : Drv α} {Q : Except String α → Drive → Prop} (hx : Acts c env may d x Q) :
    Acts c env may d x anyhow :=
  hx.weaken fun _ _ _ _ => trivial

theorem bind {x : Drv α} {f : α → Drv β} {Q : Except String α → Drive → Prop}
    (hx : Acts c env may d x Q) (hf : ∀ a d', Q (.ok a) d' → Acts c env may d' (f a) anyhow) :
    Acts c env may d (x >>= f) anyhow :=
  Refines.bind hx (fun a d' _ hQ => hf a d' hQ) fun _ _ _ _ => trivial

theorem attempt_bind {x : Drv α} {f : Option String → Drv β} {Q : Except String α → Drive → Prop}
    (hx : Acts c env may d x Q) (hf : ∀ o d', Acts c env may d' (f o) anyhow) :
    Acts c env may d (Proc.attempt x >>= f) anyhow :=
  Refines.attempt_bind hx (fun _ d' _ _ => hf none d') fun text d' _ _ => hf (some text) d'

theorem onError {x : Drv α} {y : Drv Unit} {Q : Except String α → Drive → Prop}
    (hx : Acts c env may d x Q) (hy : ∀ d', Acts c env may d' y anyhow) :
    Acts c env may d (Proc.onError x y) fun res d' =>
      match res with
      | .ok a => Q (.ok a) d'
      | .error _ => True := by
  refine (Refines.onError (S := fun _ _ => True) hx fun _ d' _ _ => hy d').weaken ?_
  rintro (text | a) d' _ hQ
  · trivial
  · exact hQ

theorem session_bind {f : Session → Drv β} {Q : Except String β → Drive → Prop}
    (hf : Acts c env may d (f d.s) Q) : Acts c env may d (session >>= f) Q := hf

/-- Actions in front of a call. -/
theorem steps {x y : Drv β} {d' : Drive} {Q : Except String β → Drive → Prop}
    (hxy : x d = y d') (hrun : Relation.ReflTransGen (Action c env may) d d')
    (hy : Acts c env may d' y Q) : Acts c env may d x Q :=
  Refines.of_eq hxy hrun hy

/-- An action in front of a call. -/
theorem step {x y : Drv β} {d' : Drive} {Q : Except String β → Drive → Prop} (hxy : x d = y d')
    (hact : Action c env may d d') (hy : Acts c env may d' y Q) : Acts c env may d x Q :=
  steps hxy (.single hact) hy

theorem tune_bind {g : Session → Session} {f : Unit → Drv β} {Q : Except String β → Drive → Prop}
    (hg : (g d.s).core = d.s.core) (hf : Acts c env may { d with s := g d.s } (f ()) Q) :
    Acts c env may d (setSession g >>= f) Q :=
  step (run_setSession_bind g f d) (.tune hg) hf

theorem tune {g : Session → Session} (hg : (g d.s).core = d.s.core) :
    Acts c env may d (setSession g) anyhow :=
  ⟨(), .single (.tune hg), trivial⟩

theorem emit_bind {e : Event} {f : Unit → Drv β} {Q : Except String β → Drive → Prop}
    (he : e.isPlain = true) (hplain : e.finishes = false)
    (hf : Acts c env may { d with log := e :: d.log } (f ()) Q) :
    Acts c env may d (emit e >>= f) Q :=
  step (run_emit_bind e f d) (.log he (by rw [hplain]; nofun)) hf

theorem emit {e : Event} (he : e.isPlain = true) (hplain : e.finishes = false) :
    Acts c env may d (Session.emit e) anyhow :=
  ⟨(), .single (.log he (by rw [hplain]; nofun)), trivial⟩

theorem send {raw : Bytes} (hraw : Held d raw) : Acts c env may d (sendDatagram env raw) anyhow :=
  ⟨(), .single (.send hraw), Ends.intro (fun _ => trivial) _⟩

/-- A call of the transport whose error is only logged. -/
theorem send_ignored {raw : Bytes} {a : α} (hraw : Held d raw) :
    Acts c env may d (Proc.attempt (sendDatagram env raw) >>= fun _ => Pure.pure a) anyhow :=
  (send hraw).attempt_bind fun _ _ => pure a

/-- What the actions keep holds after the call. -/
theorem keeps {x : Drv α} {Q : Except String α → Drive → Prop} {I : Drive → Prop}
    (hx : Acts c env may d x Q) (hI : ∀ d d', I d → Action c env may d d' → I d') (hd : I d) :
    I (x d).2 := by
  obtain ⟨_, hrun, -⟩ := hx
  exact Relation.ReflTransGen.rec (motive := fun d' _ => I d') hd (fun _ hact ih => hI _ _ ih hact)
    hrun

end Acts

/-! ## Calls that only read -/

/-- The call changes nothing but the number of random reads. -/
def Quiet (x : Drv α) : Prop := ∀ d, ∃ n, (x d).2 = { d with reads := n }

namespace Quiet

theorem lift (x : Go α) : Quiet (Proc.lift x) := fun d => ⟨d.reads, rfl⟩

theorem pure (a : α) : Quiet (Pure.pure a : Drv α) := fun d => ⟨d.reads, rfl⟩

theorem session : Quiet Session.session := fun d => ⟨d.reads, rfl⟩

theorem randRead : Quiet (Session.randRead env) := fun d => ⟨d.reads + 1, rfl⟩

theorem bind {x : Drv α} {f : α → Drv β} (hx : Quiet x) (hf : ∀ a, Quiet (f a)) :
    Quiet (x >>= f) := by
  intro d
  obtain ⟨n, hn⟩ := hx d
  rcases h : x d with ⟨r, d'⟩
  rw [h] at hn
  cases r with
  | ok a =>
      obtain ⟨n', hn'⟩ := hf a d'
      obtain rfl : d' = { d with reads := n } := hn
      rw [Proc.bind_of_ok h, hn']
      exact ⟨n', rfl⟩
  | error e =>
      rw [Proc.bind_of_error h]
      exact ⟨n, hn⟩

theorem randBytes (n : Nat) : Quiet (Session.randBytes env n) :=
  randRead.bind fun _ => lift _

theorem randUint64 : Quiet (Session.randUint64 env) :=
  (randBytes 8).bind fun _ => lift _

theorem newDHFor (group : UInt16) : Quiet (Session.newDHFor c env group) :=
  randRead.bind fun _ => lift _

theorem newChildDH : Quiet (Session.newChildDH c env) := by
  refine session.bind fun s => ?_
  split
  · exact (newDHFor _).bind fun _ => pure _
  · exact pure _

theorem jitteredDeadline (base : Time) (lifetime : Duration) :
    Quiet (Session.jitteredDeadline env base lifetime) := by
  unfold Session.jitteredDeadline
  split
  · exact pure _
  · refine Quiet.bind (randRead.bind fun x => ?_) fun _ => pure _
    split
    · exact pure _
    · exact pure _

theorem responseFlags (slot : Slot) : Quiet (Session.responseFlags slot) := by
  refine session.bind fun s => ?_
  split
  · exact lift _
  · exact pure _

/-- What holds of a state holds after the call, if it does not depend on the reads. -/
theorem acts {x : Drv α} (hx : Quiet x) {I : Drive → Prop} (hd : I d)
    (hI : ∀ d n, I d → I { d with reads := n }) : Acts c env may d x fun _ d' => I d' := by
  obtain ⟨n, hn⟩ := hx d
  refine ⟨(), ?_, Ends.intro (fun _ => ?_) _⟩
  · rw [hn]
    exact .single (.read n)
  · rw [hn]
    exact hI d n hd

theorem any {x : Drv α} (hx : Quiet x) : Acts c env may d x anyhow :=
  (hx.acts (I := fun _ => True) trivial fun _ _ _ => trivial).any

end Quiet

/-! ## Encoding -/

theorem Encoded.asked {exchange : ExchangeType} {flags : Flags} {msgID : UInt32} {inner : Payloads}
    {res : Go Bytes × Drive} (h : Encoded c .cur exchange flags msgID inner d res) {raw : Bytes}
    (hres : res.1 = .ok raw) : Asked res.2 msgID raw ∧ res.2.s.messageID = d.s.messageID := by
  cases h with
  | failed e d' n n' hs hlog => cases hres
  | done raw' d' n n' ctx hctx hraw hs hlog =>
      cases hres
      exact ⟨⟨_, _, _, _, _, hlog⟩, by rw [hs]; rfl⟩

theorem Encoded.sealed {slot : Slot} {exchange : ExchangeType} {flags : Flags} {msgID : UInt32}
    {inner : Payloads} {res : Go Bytes × Drive}
    (h : Encoded c slot exchange flags msgID inner d res) {raw : Bytes} (hres : res.1 = .ok raw) :
    Sealed res.2 slot raw := by
  cases h with
  | failed e d' n n' hs hlog => cases hres
  | done raw' d' n n' ctx hctx hraw hs hlog =>
      cases hres
      exact ⟨_, _, _, _, _, by rw [hlog]; exact List.mem_cons_self⟩

/-- What is known after an encoding under the SA of a slot. -/
def Encodes (slot : Slot) : Except String Bytes → Drive → Prop
  | .ok raw, d' => Sealed d' slot raw
  | .error _, _ => True

theorem Acts.of_encoded {x : Drv Bytes} {slot : Slot} {exchange : ExchangeType} {flags : Flags}
    {msgID : UInt32} {inner : Payloads} (hact : Action c env may d (x d).2)
    (hx : Encoded c slot exchange flags msgID inner d (x d)) : Acts c env may d x (Encodes slot) := by
  refine ⟨(), .single hact, ?_⟩
  cases hr : (x d).1 with
  | ok raw => exact hx.sealed hr
  | error e =>
      cases e with
      | err text => trivial
      | panic => trivial
      | diverge => trivial

theorem encodeIn_acts (slot : Slot) (exchange : ExchangeType) (flags : Flags) (msgID : UInt32)
    (inner : Payloads) :
    Acts c env may d (encodeIn c env slot exchange flags msgID inner) (Encodes slot) :=
  .of_encoded (.encode ..) (encoded_encodeIn ..)

theorem encodeEmptyIn_acts (slot : Slot) (exchange : ExchangeType) (flags : Flags)
    (msgID : UInt32) :
    Acts c env may d (encodeEmptyIn c env slot exchange flags msgID) (Encodes slot) :=
  .of_encoded (.encodeEmpty ..) (encoded_encodeEmptyIn ..)

/-! ## Answers -/

theorem dedup_record (s : Session) (slot : Slot) (msgID : UInt32) (raw : Bytes) :
    (s.record slot msgID raw).dedup slot = { msgID, set := true, resp := raw } := by
  cases slot <;> rfl

theorem recordAndSend_acts {slot : Slot} {msgID : UInt32} {raw : Bytes} (hraw : Sealed d slot raw) :
    Acts c env may d (recordPeerResponse slot msgID raw >>= fun _ => sendDatagram env raw) anyhow := by
  refine Acts.step (run_recordPeerResponse_bind slot msgID raw _ d) (.record msgID hraw) ?_
  exact Acts.send (.cached slot (by rw [dedup_record]) (by rw [dedup_record]))

theorem answerWith_acts {slot : Slot} {msgID : UInt32} {encode : Drv Bytes}
    (hencode : ∀ d, Acts c env may d encode (Encodes slot)) :
    Acts c env may d (answerWith env slot msgID encode) anyhow := by
  refine Acts.attempt_bind (Q := anyhow) ?_ fun _ _ => Acts.pure ()
  refine ((hencode d).onError fun d' => Acts.emit rfl rfl).bind fun raw d' hraw => ?_
  exact recordAndSend_acts hraw

theorem sendNotifyResponse_acts (slot : Slot) (msgID : UInt32) (protocol : ProtocolID)
    (notifyType : NotifyType) (data : Bytes) :
    Acts c env may d (sendNotifyResponse c env slot msgID protocol notifyType data) anyhow :=
  (Quiet.responseFlags slot).any.bind fun _ _ _ => answerWith_acts fun _ => encodeIn_acts ..

/-! ## Requests -/

theorem setPending_acts {kind : ExchangeKind} {raw : Bytes} {base : Duration} {fast : Bool}
    (hraw : Asked d d.s.messageID raw) :
    Acts c env may d (setPending env kind d.s.messageID raw base fast) fun _ d' => Held d' raw := by
  have hadopt : Action c env may d _ := .adopt
    { kind, msgID := d.s.messageID, raw, attempts := 1,
      nextRetransmit := (env.clock .request).add base, fast } hraw rfl rfl rfl
  cases kind with
  | childRekey ctx => exact ⟨(), .tail (.single hadopt) (.log rfl nofun), .pending _ rfl rfl⟩
  | _ => exact ⟨(), .single hadopt, .pending _ rfl rfl⟩

theorem request_acts {kind : ExchangeKind} {exchange : ExchangeType} {inner : Payloads}
    {base : Duration} {fast : Bool} {encode : Flags → UInt32 → Drv Bytes}
    (hencode : ∀ flags msgID d, Encoded c .cur exchange flags msgID inner d (encode flags msgID d))
    (hact : ∀ flags msgID d, Action c env may d (encode flags msgID d).2) :
    Acts c env may d (request env kind base fast encode) anyhow := by
  refine Acts.session_bind ?_
  have henc := hencode (ikeRoleBit d.s.ikeSA.role) d.s.messageID d
  have hstep := hact (ikeRoleBit d.s.ikeSA.role) d.s.messageID d
  rcases hx : encode (ikeRoleBit d.s.ikeSA.role) d.s.messageID d with ⟨res, d'⟩
  rw [hx] at henc hstep
  cases res with
  | error e => exact Refines.failed () (Proc.bind_of_error hx) (.single hstep) fun _ _ => trivial
  | ok raw =>
      obtain ⟨hasked, hid⟩ := henc.asked rfl
      refine Acts.step (Proc.bind_of_ok hx) hstep ?_
      rw [← show d'.s.messageID = d.s.messageID from hid] at hasked ⊢
      exact (setPending_acts hasked).bind fun _ _ hheld => Acts.send hheld

theorem initiateDPD_acts (fast : Bool) : Acts c env may d (initiateDPD c env fast) anyhow :=
  Acts.session_bind (request_acts (fun _ _ _ => encoded_encodeEmptyIn ..) fun _ _ _ => .encodeEmpty ..)

theorem initiateChildRekey_acts (reestablish : Bool) :
    Acts c env may d (initiateChildRekey c env reestablish) anyhow := by
  refine Acts.session_bind ?_
  split
  · exact Acts.lift _
  · refine (Quiet.randBytes 4).any.bind fun _ _ _ => ?_
    refine (Acts.lift _).bind fun _ _ _ => ?_
    refine (Quiet.randBytes nonceLen).any.bind fun _ _ _ => ?_
    refine Quiet.newChildDH.any.bind fun _ _ _ => Acts.session_bind ?_
    exact request_acts (fun _ _ _ => encoded_encodeIn ..) fun _ _ _ => .encode ..

theorem initiateIKERekey_acts : Acts c env may d (initiateIKERekey c env) anyhow := by
  refine Quiet.randUint64.any.bind fun _ _ _ => Acts.session_bind ?_
  refine (Quiet.newDHFor _).any.bind fun _ _ _ => ?_
  refine (Quiet.randBytes nonceLen).any.bind fun _ _ _ => Acts.session_bind ?_
  exact request_acts (fun _ _ _ => encoded_encodeIn ..) fun _ _ _ => .encode ..

theorem sendChildDelete_acts (inSPI : UInt32) : Acts c env may d (sendChildDelete c env inSPI) anyhow :=
  Acts.session_bind (request_acts (fun _ _ _ => encoded_encodeIn ..) fun _ _ _ => .encode ..)

/-- The delete of the current IKE SA, and what is done with it. -/
theorem deleteIKE_acts {f : Bytes → Drv Unit}
    (hf : ∀ d' raw, Asked d' d.s.messageID raw → d'.s.messageID = d.s.messageID →
      Acts c env may d' (f raw) anyhow) :
    Acts c env may d (encodeSK c env exchangeInformational (ikeRoleBit d.s.ikeSA.role) d.s.messageID
      [.delete { protocol := protocolIKE }] >>= f) anyhow := by
  have henc : Encoded c .cur exchangeInformational (ikeRoleBit d.s.ikeSA.role) d.s.messageID
      [.delete { protocol := protocolIKE }] d (encodeSK c env _ _ _ _ d) :=
    encoded_encodeIn .cur exchangeInformational (ikeRoleBit d.s.ikeSA.role) d.s.messageID _ d
  have hstep : Action c env may d (encodeSK c env exchangeInformational (ikeRoleBit d.s.ikeSA.role)
      d.s.messageID [.delete { protocol := protocolIKE }] d).2 := .encode ..
  rcases hx : encodeSK c env exchangeInformational (ikeRoleBit d.s.ikeSA.role) d.s.messageID
    [.delete { protocol := protocolIKE }] d with ⟨res, d'⟩
  rw [hx] at henc hstep
  cases res with
  | error e => exact Refines.failed () (Proc.bind_of_error hx) (.single hstep) fun _ _ => trivial
  | ok raw =>
      obtain ⟨hasked, hid⟩ := henc.asked rfl
      exact Acts.step (Proc.bind_of_ok hx) hstep (hf d' raw hasked hid)

theorem sendIKEDeleteUnderCurrent_acts (hretire : may .retire) :
    Acts c env may d (sendIKEDeleteUnderCurrent c env) anyhow := by
  refine Acts.session_bind (deleteIKE_acts fun d' raw hraw hid => ?_)
  rw [← hid] at hraw ⊢
  have hretire : Action c env may d' _ := .retire
    { kind := .delete, msgID := d'.s.messageID, raw, attempts := 1,
      nextRetransmit := (env.clock .request).add d'.s.retransmitBase } hraw rfl rfl rfl hretire
  exact Acts.step ((run_noteRequest_bind ..).trans (run_setSession_bind ..)) hretire
    (Acts.send (.oldDelete _ rfl rfl))

theorem sendGracefulDelete_acts : Acts c env may d (sendGracefulDelete c env) anyhow := by
  refine Acts.session_bind (deleteIKE_acts fun d' raw hraw hid => ?_)
  rw [← hid] at hraw ⊢
  exact Acts.step ((run_noteRequest_bind ..).trans (run_setSession_bind ..)) (.part hraw)
    (Acts.send (.noted rfl))

/-! ## Installation and cutover -/

/-- The message stays encoded. -/
theorem Sealed.mono {d' : Drive} {slot : Slot} {raw : Bytes} (h : Sealed d slot raw)
    (hlog : d.log <:+ d'.log) : Sealed d' slot raw := by
  obtain ⟨ctx, exchange, flags, msgID, inner, hmem⟩ := h
  exact ⟨ctx, exchange, flags, msgID, inner, hlog.subset hmem⟩

theorem installChildSA_acts {role : Role} {slot : Slot} {msgID : UInt32} {u : ChildSAUpdate}
    (hfinish : role = .initiator → may .finish) :
    Acts c env may d (installChildSA role slot msgID u) fun _ d' =>
      ∀ slot' raw, Sealed d slot' raw → Sealed d' slot' raw := by
  refine Acts.session_bind ?_
  cases hdp : d.s.dataPlane with
  | true =>
      refine ⟨(), .single (.log rfl fun h => hfinish ?_), fun slot' raw hraw => hraw.mono ?_⟩
      · cases role with
        | initiator => rfl
        | responder => cases h
      exact List.suffix_cons _ _
  | false => exact Refines.failed () rfl .refl nofun

/-- A cutover, after the event that tells of it.  The response cache is kept. -/
theorem swapIKE_run (c : Crypto) (may : Deed → Prop) (role : Role) (msgID : UInt32) (newIKE : IKESA)
    (spii spir : UInt64) (hmay : may (.cutover role)) :
    ∃ d', swapIKE env newIKE spii spir
        { d with log := .cutover role msgID { sa := newIKE, spii, spir } :: d.log } = (.ok (), d') ∧
      Relation.ReflTransGen (Action c env may) d d' ∧ d'.s.oldPeer = d.s.peer ∧
      d'.log = .cutover role msgID { sa := newIKE, spii, spir } :: d.log ∧ d'.s.pending = none ∧
      d'.s.oldIKEDelete = d.s.oldIKEDelete := by
  -- the outstanding exchange of the old SA is dropped, so it may as well be dropped before
  have hdrop : Action c env may d _ := .drop
  have hcut : Action c env may { d with s := { d.s with pending := none } } _ :=
    .cutover role msgID { sa := newIKE, spii, spir } ((env.clock .cutover).add ikeRekeyGrace)
      (env.clock .cutover) rfl hmay
  unfold swapIKE
  rw [run_setSession_bind, run_session_bind]
  obtain ⟨deadline, d₁, hx, -⟩ := jitteredDeadline_ok env _ _ _
  obtain ⟨n, hn⟩ := Quiet.jitteredDeadline _ _ _
  rw [hx] at hn
  obtain rfl : d₁ = _ := hn
  rw [Proc.bind_of_ok hx]
  have hread : Relation.ReflTransGen (Action c env may) d _ :=
    .tail (.tail (.single hdrop) hcut) (.read n)
  exact ⟨_, rfl, .tail hread (.tune rfl), rfl, rfl, rfl, rfl⟩

theorem completeChildRekey_acts {inner : Payloads} {msgID : UInt32} {ctx : ChildRekeyCtx}
    (hfinish : may .finish) :
    Acts c env may d (completeChildRekey c env inner msgID ctx) anyhow := by
  refine Acts.session_bind ((Acts.lift _).bind fun res d' _ => ?_)
  refine (installChildSA_acts fun _ => hfinish).bind fun _ _ _ => Acts.tune_bind rfl ?_
  split
  · exact Acts.pure ()
  split
  · exact Acts.pure ()
  · exact sendChildDelete_acts _

theorem childRekeyPFS_acts {slot : Slot} {msgID : UInt32} {ke : Option KEPayload} :
    Acts c env may d (childRekeyPFS c env slot msgID ke) anyhow := by
  cases ke with
  | none => exact Acts.pure none
  | some ke =>
      refine ((Quiet.newDHFor _).any.onError fun _ => sendNotifyResponse_acts ..).bind fun dh _ _ => ?_
      refine ((Acts.lift _).onError fun _ => sendNotifyResponse_acts ..).bind fun _ _ _ => ?_
      exact Acts.pure _

theorem installAnswered_acts {slot : Slot} {msgID : UInt32} {pfs : Option DH} {u : ChildSAUpdate}
    {child : ChildSA} {raw : Bytes} (hraw : Sealed d slot raw) :
    Acts c env may d (installAnswered env slot msgID pfs u child raw) anyhow := by
  refine Acts.tune_bind (by cases pfs <;> rfl) ?_
  refine (installChildSA_acts nofun).bind fun _ d₁ hkept => Acts.tune_bind rfl (Acts.session_bind ?_)
  refine Acts.bind (Q := fun _ d' => Sealed d' slot raw) ?_ fun deadline d₂ h₂ => ?_
  · exact (Quiet.jitteredDeadline _ _).acts (hkept slot raw hraw) fun _ _ => id
  · exact Acts.tune_bind rfl (recordAndSend_acts h₂)

theorem acceptChildRekey_acts {slot : Slot} {msgID : UInt32} {child : ChildSA}
    {req : ChildRekeyRequest} {prop : Proposal} {suite : EspSuite} :
    Acts c env may d (acceptChildRekey c env slot msgID child req prop suite) anyhow := by
  refine (Acts.lift _).bind fun _ _ _ => ?_
  refine childRekeyPFS_acts.bind fun _ _ _ => ?_
  refine ((Quiet.randBytes 4).any.onError fun _ => sendNotifyResponse_acts ..).bind fun _ _ _ => ?_
  refine (Acts.lift _).bind fun _ _ _ => ?_
  refine ((Quiet.randBytes _).any.onError fun _ => sendNotifyResponse_acts ..).bind fun _ _ _ => ?_
  refine Acts.session_bind ((Quiet.responseFlags slot).any.bind fun _ _ _ => ?_)
  refine ((encodeIn_acts ..).onError fun _ => Acts.emit rfl rfl).bind fun raw d₁ hraw => ?_
  split
  · exact Acts.lift _
  · refine ((Quiet.lift _).acts (I := fun d' => Sealed d' slot raw) hraw fun _ _ => id).bind ?_
    exact fun _ _ h₂ => installAnswered_acts h₂

theorem handleChildRekeyRequest_acts {msgID : UInt32} {inner : Payloads} {slot : Slot} :
    Acts c env may d (handleChildRekeyRequest c env msgID inner slot) anyhow := by
  refine Acts.session_bind ?_
  split
  · exact (sendNotifyResponse_acts ..).bind fun _ _ _ => Acts.lift _
  split
  · exact (sendNotifyResponse_acts ..).bind fun _ _ _ => Acts.lift _
  split
  · exact sendNotifyResponse_acts ..
  dsimp only
  split
  · exact acceptChildRekey_acts
  split
  · exact sendNotifyResponse_acts ..
  · exact (sendNotifyResponse_acts ..).bind fun _ _ _ => Acts.lift _

theorem completeIKERekey_acts {inner : Payloads} {msgID : UInt32} {ctx : IkeRekeyCtx}
    (hretire : may .retire) (hcutover : may (.cutover .initiator)) :
    Acts c env may d (completeIKERekey c env inner msgID ctx) anyhow := by
  refine Acts.session_bind ((Acts.lift _).bind fun _ _ _ => ?_)
  refine (sendIKEDeleteUnderCurrent_acts hretire).attempt_bind fun _ d' => ?_
  obtain ⟨d₁, hx, hrun, -⟩ := swapIKE_run (d := d') c may .initiator msgID _ _ _ hcutover
  exact Acts.steps (y := Pure.pure ()) ((run_emit_bind ..).trans hx) hrun (Acts.pure ())

theorem acceptIKERekey_acts {msgID : UInt32} {ni : Bytes} {kei : KEPayload} {prop : Proposal}
    {suite : IkeSuite} (hcutover : may (.cutover .responder)) :
    Acts c env may d (acceptIKERekey c env msgID ni kei prop suite) anyhow := by
  refine (Acts.lift _).bind fun _ _ _ => ?_
  refine ((Quiet.newDHFor _).any.onError fun _ => sendNotifyResponse_acts ..).bind fun dh _ _ => ?_
  refine ((Acts.lift _).onError fun _ => sendNotifyResponse_acts ..).bind fun _ _ _ => ?_
  refine (Quiet.randUint64.any.onError fun _ => sendNotifyResponse_acts ..).bind fun _ _ _ => ?_
  refine ((Quiet.randBytes _).any.onError fun _ => sendNotifyResponse_acts ..).bind fun _ _ _ => ?_
  refine Acts.session_bind ?_
  refine ((Acts.lift _).onError fun _ => sendNotifyResponse_acts ..).bind fun newIKE _ _ => ?_
  refine (Quiet.responseFlags .cur).any.bind fun _ _ _ => ?_
  refine ((encodeIn_acts ..).onError fun _ => sendNotifyResponse_acts ..).bind fun raw d₁ hraw => ?_
  refine Acts.step (run_recordPeerResponse_bind ..) (.record msgID hraw) ?_
  -- the response is sent from the cache, which the cutover has moved
  obtain ⟨d₂, hx, hrun, hpeer, -⟩ := swapIKE_run (d := { d₁ with
    s := d₁.s.record .cur msgID raw, log := .answered .cur msgID raw :: d₁.log }) c may .responder msgID
      newIKE _ _ hcutover
  refine Acts.steps ((run_emit_bind ..).trans (Proc.bind_of_ok hx)) hrun ?_
  refine Acts.tune_bind rfl (Acts.send (.cached .old ?_ ?_))
  · exact congrArg PeerDedup.set hpeer
  · exact congrArg PeerDedup.resp hpeer

theorem handleIKERekeyRequest_acts {msgID : UInt32} {inner : Payloads}
    (hcutover : may (.cutover .responder)) :
    Acts c env may d (handleIKERekeyRequest c env msgID inner) anyhow := by
  refine Acts.session_bind ?_
  split
  · exact (sendNotifyResponse_acts ..).bind fun _ _ _ => Acts.lift _
  split
  · exact sendNotifyResponse_acts ..
  split
  · exact acceptIKERekey_acts hcutover
  split
  · exact sendNotifyResponse_acts ..
  · exact (sendNotifyResponse_acts ..).bind fun _ _ _ => Acts.lift _

/-! ## Responses of the peer -/

/-- A response to the exchange that is outstanding permits its completion. -/
def Completes (may : Deed → Prop) (s : Session) (msgID : UInt32) : Prop :=
  ∀ p, s.pending = some p → p.msgID = msgID →
    match p.kind with
    | .childRekey _ => may .finish
    | .ikeRekey _ => may .retire ∧ may (.cutover .initiator)
    | _ => True

theorem clearPending_acts (msgID : UInt32) : Acts c env may d (clearPending msgID) anyhow := by
  refine ⟨(), ?_, trivial⟩
  rw [clearPending, setSession]
  cases hp : d.s.pending with
  | none => exact .refl
  | some p =>
      dsimp only
      split
      · exact .single .drop
      · exact .refl

theorem clearOldIKEDelete_acts (msgID : UInt32) :
    Acts c env may d (clearOldIKEDelete msgID) anyhow := by
  refine ⟨(), ?_, trivial⟩
  rw [clearOldIKEDelete, setSession]
  cases hp : d.s.oldIKEDelete with
  | none => exact .refl
  | some p =>
      dsimp only
      split
      · exact .single .dropOld
      · exact .refl

theorem completeMatchingRekey_acts {msgID : UInt32} {inner : Payloads} {slot : Slot}
    (hmay : slot = .cur → Completes may d.s msgID) :
    Acts c env may d (completeMatchingRekey c env msgID inner slot) anyhow := by
  cases slot with
  | old => exact Acts.pure ()
  | cur =>
      refine Acts.session_bind ?_
      split
      · exact Acts.pure ()
      rename_i p hp
      split
      · exact Acts.pure ()
      rename_i hid
      have hdeeds := hmay rfl p hp (not_not.mp hid)
      split
      · rename_i ctx hkind
        rw [hkind] at hdeeds
        refine Acts.step (run_setSession_bind ..) .drop ?_
        refine (completeChildRekey_acts hdeeds).attempt_bind fun err d' => ?_
        cases err with
        | some text => exact Acts.pure ()
        | none =>
            refine Acts.session_bind ((Quiet.jitteredDeadline _ _).any.bind fun _ _ _ => ?_)
            exact Acts.tune rfl
      · rename_i ctx hkind
        rw [hkind] at hdeeds
        refine Acts.step (run_setSession_bind ..) .drop ?_
        exact (completeIKERekey_acts hdeeds.1 hdeeds.2).attempt_bind fun _ _ => Acts.pure ()
      · exact Acts.pure ()

/-! ## Requests of the peer -/

theorem dedupPeerRequest_acts (msgID : UInt32) (slot : Slot) :
    Acts c env may d (dedupPeerRequest env msgID slot) anyhow := by
  refine Acts.session_bind ?_
  dsimp only
  split
  · rename_i hcovers
    split
    · exact Acts.send_ignored (.cached slot hcovers.1 rfl)
    · exact Acts.pure true
  · exact Acts.pure false

theorem handleInboundChildDelete_acts (p : DeletePayload) :
    Acts c env may d (handleInboundChildDelete c env p) anyhow := by
  refine Acts.session_bind ?_
  split
  · exact Acts.pure ()
  split
  · exact Acts.pure ()
  refine Acts.emit_bind rfl rfl ?_
  split
  · exact Acts.tune rfl
  · refine (initiateChildRekey_acts true).attempt_bind fun err d' => ?_
    cases err with
    | some text => exact Acts.tune rfl
    | none => exact Acts.tune rfl

theorem handleDeletes_acts (slot : Slot) : ∀ (inner : Payloads) (teardown : Bool) (d : Drive),
    Acts c env may d (handleDeletes c env slot inner teardown) anyhow
  | [], teardown, d => Acts.pure teardown
  | p :: ps, teardown, d => by
      cases p <;> unfold handleDeletes
      case delete p =>
        split
        · exact handleDeletes_acts slot ps _ d
        split
        · refine (handleInboundChildDelete_acts p).bind fun _ d' _ => ?_
          exact handleDeletes_acts slot ps _ d'
        · exact handleDeletes_acts slot ps _ d
      all_goals exact handleDeletes_acts slot ps _ d

theorem handleInformationalRequest_acts {msgID : UInt32} {inner : Payloads} {slot : Slot} :
    Acts c env may d (handleInformationalRequest c env msgID inner slot) anyhow := by
  refine (handleDeletes_acts slot inner false d).bind fun _ _ _ => ?_
  refine (Quiet.responseFlags slot).any.bind fun _ _ _ => ?_
  exact (answerWith_acts fun _ => encodeEmptyIn_acts ..).bind fun _ _ _ => Acts.pure _

theorem handleCreateChildSA_acts {msgID : UInt32} {inner : Payloads} {slot : Slot}
    (hmay : slot = .cur → isIKERekey inner = true → may (.cutover .responder)) :
    Acts c env may d (handleCreateChildSA c env msgID inner slot) anyhow := by
  refine Acts.session_bind ?_
  split
  · exact sendNotifyResponse_acts ..
  split
  · rename_i hrekey
    cases slot with
    | old => exact sendNotifyResponse_acts ..
    | cur =>
        exact (handleIKERekeyRequest_acts (hmay rfl hrekey)).attempt_bind fun _ _ => Acts.pure ()
  · exact handleChildRekeyRequest_acts.attempt_bind fun _ _ => Acts.pure ()

theorem takeUp_acts {msgID : UInt32} {slot : Slot} {process : Drv Bool}
    (hprocess : ∀ d, Acts c env may d process anyhow) :
    Acts c env may d (takeUp env msgID slot process) anyhow := by
  refine (dedupPeerRequest_acts msgID slot).bind fun duplicate d' _ => ?_
  cases duplicate with
  | true => exact Acts.pure false
  | false =>
      refine Acts.emit_bind rfl rfl ((hprocess _).bind fun _ _ _ => ?_)
      exact Acts.emit_bind rfl rfl (Acts.pure _)

/-- What a message permits. -/
structure Permits (may : Deed → Prop) (s : Session) (hdr : Message) (inner : Payloads) (slot : Slot) :
    Prop where
  response : slot = .cur → hdr.exchange = exchangeCreateChildSA → hdr.flags.isResponse = true →
    Completes may s hdr.messageID
  request : slot = .cur → hdr.exchange = exchangeCreateChildSA → hdr.flags.isResponse = false →
    isIKERekey inner = true → may (.cutover .responder)

theorem dispatch_acts {hdr : Message} {inner : Payloads} {slot : Slot}
    (hmay : Permits may d.s hdr inner slot) :
    Acts c env may d (dispatch c env hdr inner slot) anyhow := by
  unfold dispatch
  dsimp only
  split
  · split
    · cases slot with
      | old => exact (clearOldIKEDelete_acts _).bind fun _ _ _ => Acts.pure false
      | cur => exact (clearPending_acts _).bind fun _ _ _ => Acts.pure false
    · refine takeUp_acts fun d => handleInformationalRequest_acts.bind fun teardown _ _ => ?_
      cases teardown with
      | true => exact Acts.emit_bind rfl rfl (Acts.pure true)
      | false => exact Acts.pure false
  split
  · rename_i hexchange
    split
    · rename_i hresp
      have hcompletes := fun hslot => hmay.response hslot hexchange hresp
      exact (completeMatchingRekey_acts hcompletes).bind fun _ _ _ => Acts.pure false
    · rename_i hreq
      have haccepts := fun hslot => hmay.request hslot hexchange (Bool.eq_false_iff.mpr hreq)
      exact takeUp_acts fun d => (handleCreateChildSA_acts haccepts).bind fun _ _ _ => Acts.pure false
  · exact Acts.pure false

theorem handleInbound_acts {raw : Bytes}
    (hmay : ∀ hdr inner slot, d.s.decodeIKE c env raw = .ok (hdr, inner, slot) →
      Permits may d.s hdr inner slot) :
    Acts c env may d (handleInbound c env raw) anyhow := by
  refine Acts.session_bind ?_
  split
  · exact Acts.pure false
  · exact Acts.lift _
  · rename_i hdr inner slot hdecode
    obtain ⟨hresponse, hrequest⟩ := hmay hdr inner slot hdecode
    exact Acts.tune_bind rfl (dispatch_acts ⟨hresponse, hrequest⟩)

/-! ## Timers -/

theorem detectSuspend_acts {now : Time} : Acts c env may d (detectSuspend c env now) anyhow := by
  refine Acts.session_bind (Acts.tune_bind rfl ?_)
  split
  · exact Acts.pure ()
  refine Acts.session_bind ?_
  split
  · exact (initiateDPD_acts true).attempt_bind fun _ _ => Acts.pure ()
  · rename_i p hp
    refine Acts.step (run_setSession_bind ..) (.hurry now hp) ?_
    split
    · exact Acts.pure ()
    · exact Acts.tune rfl

theorem expireOldIKE_acts {now : Time} : Acts c env may d (expireOldIKE now) anyhow := by
  refine ⟨(), ?_, trivial⟩
  change Relation.ReflTransGen _ d { d with s := if d.s.oldIKE.isSome ∧ now.after d.s.oldIKEUntil then
    { d.s with oldIKE := none, oldPeer := {}, oldIKEDelete := none } else d.s }
  split
  · exact .single .expire
  · exact .refl

theorem retransmitOldIKEDelete_acts {now : Time} :
    Acts c env may d (retransmitOldIKEDelete env now) anyhow := by
  refine Acts.session_bind ?_
  split
  · exact Acts.pure ()
  rename_i p hp
  split
  · exact ⟨(), .single .dropOld, trivial⟩
  split
  · dsimp only
    split
    · exact ⟨(), .single .dropOld, trivial⟩
    · rename_i htries
      refine Acts.step ((run_setSession_bind ..).trans (run_emit_bind ..)) (.againOld _ hp htries) ?_
      exact Acts.send_ignored (.oldDelete _ rfl rfl)
  · exact Acts.pure ()

theorem retransmitPending_acts {now : Time} {p : PendingExchange} (hp : d.s.pending = some p) :
    Acts c env may d (retransmitPending env now p) anyhow := by
  unfold retransmitPending
  split
  · refine Acts.session_bind ?_
    dsimp only
    split
    · refine Acts.step (run_setSession_bind ..) .drop ?_
      split
      · exact Acts.emit_bind rfl rfl (Acts.pure true)
      · refine Acts.tune_bind ?_ (Acts.pure false)
        split <;> rfl
    · rename_i htries
      refine Acts.step ((run_setSession_bind ..).trans (run_emit_bind ..)) (.again _ hp htries) ?_
      exact Acts.send_ignored (.pending _ rfl rfl)
  · exact Acts.pure false

theorem runReestablish_acts {now : Time} : Acts c env may d (runReestablish c env now) anyhow := by
  refine (initiateChildRekey_acts true).attempt_bind fun err d' => ?_
  cases err with
  | some text => exact Acts.tune rfl
  | none => exact Acts.tune rfl

theorem startExchange_acts {now : Time} : Acts c env may d (startExchange c env now) anyhow := by
  refine Acts.session_bind ?_
  split
  · exact Acts.tune_bind rfl ((initiateDPD_acts true).attempt_bind fun _ _ => Acts.pure ())
  split
  · exact runReestablish_acts
  split
  · exact Acts.tune_bind rfl ((initiateChildRekey_acts false).attempt_bind fun _ _ => Acts.pure ())
  split
  · exact Acts.tune_bind rfl (initiateIKERekey_acts.attempt_bind fun _ _ => Acts.pure ())
  split
  · exact Acts.tune_bind rfl ((initiateChildRekey_acts false).attempt_bind fun _ _ => Acts.pure ())
  split
  · exact (initiateDPD_acts false).attempt_bind fun _ _ => Acts.pure ()
  · exact Acts.pure ()

theorem housekeeping_acts : Acts c env may d (housekeeping c env) anyhow := by
  refine detectSuspend_acts.bind fun _ _ _ => expireOldIKE_acts.bind fun _ _ _ => ?_
  refine retransmitOldIKEDelete_acts.bind fun _ d' _ => Acts.session_bind ?_
  cases hp : d'.s.pending with
  | some p => exact retransmitPending_acts hp
  | none => exact startExchange_acts.bind fun _ _ _ => Acts.pure false

/-! ## The loop -/

/-- What the input of a turn permits. -/
def Input.Permits (c : Crypto) (env : Env) (may : Deed → Prop) (s : Session) : Input → Prop
  | .datagram raw => ∀ hdr inner slot, s.decodeIKE c env raw = .ok (hdr, inner, slot) →
      Session.Permits may s hdr inner slot
  | _ => True

/-- Every turn of the loop is a sequence of actions. -/
theorem driverStep_acts (input : Input) (hmay : input.Permits c env may d.s) :
    Acts c env may d (driverStep c env input) anyhow := by
  cases input with
  | datagram raw => exact handleInbound_acts hmay
  | tick => exact housekeeping_acts
  | done => exact sendGracefulDelete_acts.attempt_bind fun _ _ => Acts.pure true

/-- What the actions a turn may take keep holds after it. -/
theorem driverStep_keeps_of_permits {I : Drive → Prop}
    (hI : ∀ d d', I d → Action c env may d d' → I d') (hd : I d) (input : Input)
    (hmay : input.Permits c env may d.s) : I (driverStep c env input d).2 :=
  (driverStep_acts input hmay).keeps hI hd

theorem permits_all (input : Input) (s : Session) : input.Permits c env (fun _ => True) s := by
  cases input with
  | datagram raw =>
      refine fun hdr inner slot _ => ⟨fun _ _ _ p _ _ => ?_, fun _ _ _ _ => trivial⟩
      cases p.kind <;> trivial
  | tick => trivial
  | done => trivial

/-- What every action keeps holds after every turn. -/
theorem driverStep_keeps {I : Drive → Prop} (hI : ∀ d d', I d → Act c env d d' → I d') (hd : I d)
    (input : Input) : I (driverStep c env input d).2 :=
  driverStep_keeps_of_permits hI hd input (permits_all input d.s)

end

end GoIpsec.Session
