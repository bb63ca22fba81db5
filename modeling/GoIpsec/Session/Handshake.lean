import GoIpsec.Auth.Auth
import GoIpsec.Eap.Mschap
import GoIpsec.Session.Rekey

/-!
# The handshake

The state of a session that is being set up, the transport below it, and the
exchange of one request for one response, which the IKE_SA_INIT and the IKE_AUTH
exchanges are made of.

What the transport receives is a list of arrivals (`Arrival`), fixed in advance: the
datagrams in the order in which they are read, and between them the points at which
a receive fails.  After the last one nothing arrives any more.  How long an attempt
waits shows only in where its failure stands in that list, so the backoff of the
retransmissions has no other place in the model.

The outside is a `World`.  As in the control loop nothing is assumed of its answers,
and a log that the code never reads keeps what the properties speak of.
-/

set_option linter.dupNamespace false

namespace GoIpsec

open Golang Ikemsg Ikesa

namespace Session

/-! ## Framing -/

/-- What a datagram on the NAT traversal port is. -/
inductive Kind where
  | unknown
  | ike
  | esp
  | keepalive
deriving Repr, DecidableEq

def keepaliveByte : UInt8 := 0xFF

/-- A single octet keeps the mapping of a NAT open. -/
def isKeepalive (datagram : Bytes) : Go Bool :=
  if datagram.length = 1 then (· == keepaliveByte) <$> index datagram 0 else .ok false

/-- The kind of a datagram and the payload to process. -/
def classify (datagram : Bytes) : Go (Kind × Bytes) := do
  if ← isKeepalive datagram then return (.keepalive, [])
  else if datagram.length ≥ 4 then
    if (← uint32 (← slice datagram 0 4)) = 0 then return (.ike, ← sliceFrom datagram 4)
    else return (.esp, datagram)
  else return (.unknown, [])

theorem classify_ok (datagram : Bytes) : ∃ r, classify datagram = .ok r := by
  have halive : ∃ b, isKeepalive datagram = .ok b := by
    unfold isKeepalive
    split
    · rw [index_ok (by omega)]
      exact ⟨_, rfl⟩
    · exact ⟨_, rfl⟩
  obtain ⟨b, hb⟩ := halive
  rw [classify, hb, ok_bind]
  split
  · exact ⟨_, rfl⟩
  split
  · rename_i hlen
    obtain ⟨v, hv⟩ := uint32_ok (b := (datagram.take 4).drop 0) (by simp; omega)
    rw [slice_ok (by omega) hlen, ok_bind, hv, ok_bind]
    split
    · rw [sliceFrom_ok hlen]
      exact ⟨_, rfl⟩
    · exact ⟨_, rfl⟩
  · exact ⟨_, rfl⟩

/-- A datagram is classified by its first word. -/
theorem classify_word (word : UInt32) (rest : Bytes) :
    classify (putUint32 word ++ rest) =
      .ok (if word = 0 then (.ike, rest) else (.esp, putUint32 word ++ rest)) := by
  have hlen : (putUint32 word ++ rest).length ≥ 4 := by simp
  have halive : isKeepalive (putUint32 word ++ rest) = .ok false := by
    rw [isKeepalive, if_neg (by omega)]
  have hword : slice (putUint32 word ++ rest) 0 4 = .ok (putUint32 word) := by
    rw [slice_append_of_le (by simp), slice_all (by simp)]
  have hrest : sliceFrom (putUint32 word ++ rest) 4 = .ok rest := by
    rw [sliceFrom_ok hlen, List.drop_left' (by simp)]
  rw [classify, halive, ok_bind, if_neg Bool.false_ne_true, if_pos hlen, hword, ok_bind,
    uint32_putUint32, ok_bind, hrest]
  by_cases h : word = 0
  · rw [if_pos h, if_pos h, ok_bind, pure_eq_ok]
  · rw [if_neg h, if_neg h, pure_eq_ok]

/-! ## Sessions -/

/-- An identity in wire form. -/
structure WireID where
  type : UInt8 := 0
  data : Bytes := []
deriving Repr, DecidableEq

/-- The identities and secrets of the configuration. -/
structure Credentials where
  localID : WireID := {}
  remoteID : WireID := {}
  eapUser : Bytes := []
  eapPass : Bytes := []
  psk : Bytes := []
deriving Repr, DecidableEq

/-- The configuration the responder pushed. -/
structure Assigned where
  ip : Option Bytes := none
  netmask : Option Bytes := none
  dns : List Bytes := []
  /-- The address and the length of its prefix. -/
  ip6 : Option (Bytes × Nat) := none
  dns6 : List Bytes := []
deriving Repr, DecidableEq

/-- A session that is being set up. -/
structure Handshake where
  cfg : Config
  creds : Credentials
  initiatorSPI : UInt64 := 0
  responderSPI : UInt64 := 0
  ikeSA : Option IKESA := none
  dh : Option DH := none
  nonceI : Bytes := []
  nonceR : Bytes := []
  peerDHPub : Bytes := []
  /-- The IKE_SA_INIT datagrams, as they were sent and received. -/
  initSAInitReq : Bytes := []
  initSAInitRsp : Bytes := []
  messageID : UInt32 := 0
  childInitiatorSPI : UInt32 := 0
  remoteIDr : WireID := {}
  child : Option ChildSA := none
  assigned : Assigned := {}
  established : Bool := false
  nattMode : Bool := false
  natDetected : Bool := false
  ikeDHGroup : UInt16 := 0
deriving Repr, DecidableEq

namespace Handshake

variable (s : Handshake)

def enabledESPSuites : List EspSuite := enabledSuites s.cfg.espSuites Session.espSuites
def enabledIKESuites : List IkeSuite := enabledSuites s.cfg.ikeSuites Session.ikeSuites

def retransmitTries : Nat :=
  if s.cfg.retransmitTries > 0 then s.cfg.retransmitTries.toNat else 5

def frame (ike : Bytes) : Bytes := if s.nattMode then wrapIKE ike else ike

end Handshake

/-- The session `New` makes. -/
def Handshake.new (cfg : Config) (creds : Credentials) : Handshake := { cfg, creds }

/-! ## The payloads of a chain -/

end Session

namespace Ikemsg.Payload

def sa? : Payload → Option SAPayload
  | .sa p => some p
  | _ => none

def ke? : Payload → Option KEPayload
  | .ke p => some p
  | _ => none

def nonce? : Payload → Option NoncePayload
  | .nonce p => some p
  | _ => none

def idr? : Payload → Option IDrPayload
  | .idr p => some p
  | _ => none

def auth? : Payload → Option AuthPayload
  | .auth p => some p
  | _ => none

def cert? : Payload → Option CertPayload
  | .cert p => some p
  | _ => none

end Ikemsg.Payload

namespace Session

/-- The last payload of a kind, which is the one a loop over the chain ends up
with. -/
def lastOf {α : Type} (kind : Payload → Option α) (ps : Payloads) : Option α :=
  (ps.filterMap kind).getLast?

theorem lastOf_concat {α : Type} (kind : Payload → Option α) (ps : Payloads) (p : Payload) :
    lastOf kind (ps ++ [p]) = (kind p).or (lastOf kind ps) := by
  unfold lastOf
  rw [List.filterMap_append, List.getLast?_append]
  cases hp : kind p <;> simp [hp]

theorem lastOf_concat_of_none {α : Type} {kind : Payload → Option α} {p : Payload}
    (h : kind p = none) (ps : Payloads) : lastOf kind (ps ++ [p]) = lastOf kind ps := by
  rw [lastOf_concat, h, Option.none_or]

/-! ## The outside -/

/-- What a receive gives. -/
inductive Arrival where
  | datagram (raw : Bytes)
  /-- The deadline of the attempt passes, or the socket fails. -/
  | failed (text : String)
  /-- The context of the whole call is done.  It stays done. -/
  | cancelled
deriving Repr, DecidableEq

/-- The answers of the outside to a handshake. -/
structure World where
  /-- The outcome of the nth random read. -/
  rand : Nat → RandRead
  /-- Whether the nth datagram is sent. -/
  sendOK : Nat → Bool
  /-- The transport can move to the NAT traversal port. -/
  migrates : Bool
  /-- The detection hashes of the two ends of the socket, for the SPIs given. -/
  localHash : (spii spir : UInt64) → Bytes
  remoteHash : (spii spir : UInt64) → Bytes
  eap : Eap.Library
  x509 : Auth.X509

/-- What the log of a handshake keeps. -/
inductive Moment where
  /-- A message was encoded under the IKE SA. -/
  | sealed (ctx : IkeCtx) (exchange : ExchangeType) (flags : Flags) (msgID : UInt32)
      (inner : Payloads) (raw : Bytes)
  /-- A response was decoded. -/
  | heard (inner : Payloads)
  /-- An EAP request was answered, which left the conversation in this state. -/
  | answered (req : Eap.Packet) (m : Eap.MSCHAPv2)
  /-- The master session key was derived from the conversation. -/
  | derived (m : Eap.MSCHAPv2) (msk : Bytes)
deriving Repr, DecidableEq

/-- A handshake in a run. -/
structure Dialing where
  s : Handshake
  /-- The number of random reads so far. -/
  reads : Nat := 0
  /-- The datagrams handed to the transport, newest first. -/
  sent : List Bytes := []
  /-- What is still to be received. -/
  inbox : List Arrival := []
  /-- What happened, newest first. -/
  log : List Moment := []
  /-- For each response that IKE_SA_INIT took, what was left to be received behind it,
  newest first. -/
  taken : List Nat := []
  /-- The number of values of the IV counter that were used up. -/
  spent : Nat := 0
deriving Repr, DecidableEq

/-- An encoding takes one random read, and has left the IKE SA as `ike'`. -/
def Dialing.spend (d : Dialing) (ike ike' : IKESA) : Dialing :=
  { d with
    s := { d.s with ikeSA := some ike' }
    reads := d.reads + 1
    spent := if ike'.skSeq = ike.skSeq then d.spent else d.spent + 1 }

abbrev Dial := Proc Dialing

namespace Dial

def session : Dial Handshake := fun d => (.ok d.s, d)

def setSession (f : Handshake → Handshake) : Dial Unit := fun d => (.ok (), { d with s := f d.s })

/-- A field that is a pointer, followed. -/
def deref {α : Type} (field : Handshake → Option α) : Dial α := fun d =>
  match field d.s with
  | none => (.error .panic, d)
  | some a => (.ok a, d)

theorem deref_eq_ok {α : Type} {field : Handshake → Option α} {d d' : Dialing} {a : α}
    (h : deref field d = (.ok a, d')) : field d.s = some a ∧ d = d' := by
  unfold deref at h
  split at h
  · cases congrArg Prod.fst h
  · rename_i b hb
    cases h
    exact ⟨hb, rfl⟩

def note (e : Moment) : Dial Unit := fun d => (.ok (), { d with log := e :: d.log })

def noteTaken : Dial Unit := fun d => (.ok (), { d with taken := d.inbox.length :: d.taken })

section

variable (c : Crypto) (w : World)

def randRead : Dial RandRead := fun d => (.ok (w.rand d.reads), { d with reads := d.reads + 1 })

def randBytes (n : Nat) : Dial Bytes := do Proc.lift ((← randRead w).full n)

def randUint64 : Dial UInt64 := do
  let b ← randBytes w 8
  Proc.lift (uint64 b)

def newDHFor (group : UInt16) : Dial DH := do Proc.lift (newDH c group (← randRead w))

def sendDatagram (ike : Bytes) : Dial Unit := fun d =>
  (if w.sendOK d.sent.length then .ok () else fail "transport: send failed",
    { d with sent := d.s.frame ike :: d.sent })

end

/-! ## One exchange -/

/-- The IKE message in a datagram, if it is one. -/
def unframe (natt : Bool) (raw : Bytes) : Go (Option Bytes) :=
  if !natt then .ok (some raw)
  else do
    let (kind, payload) ← classify raw
    return if kind = .ike then some payload else none

/-- The IKE message in a datagram, if by its header it is the response with the
given Message ID.  Everything else is dropped. -/
def matching (natt : Bool) (expectMsgID : UInt32) (raw : Bytes) : Go (Option Bytes) := do
  match ← unframe natt raw with
  | none => return none
  | some ike =>
      match parse ike with
      | .error (.err _) => return none
      | .error e => .error e
      | .ok hdr =>
          if hdr.messageID ≠ expectMsgID then return none
          else if !hdr.flags.isResponse then return none
          else return some ike

/-- Receive until a datagram matches. -/
def recvMatchingFrom (natt : Bool) (expectMsgID : UInt32) :
    List Arrival → Go Bytes × List Arrival
  | [] => (fail "context deadline exceeded", [])
  | .failed text :: rest => (fail text, rest)
  | .cancelled :: rest => (fail "context canceled", .cancelled :: rest)
  | .datagram raw :: rest =>
      match matching natt expectMsgID raw with
      | .error e => (.error e, rest)
      | .ok (some ike) => (.ok ike, rest)
      | .ok none => recvMatchingFrom natt expectMsgID rest

def recvMatching (expectMsgID : UInt32) : Dial Bytes := fun d =>
  let r := recvMatchingFrom d.s.nattMode expectMsgID d.inbox
  (r.1, { d with inbox := r.2 })

/-- Whether the context of the call is done. -/
def ctxDone : Dial Bool := fun d => (.ok (d.inbox.head? == some .cancelled), d)

section

variable (c : Crypto) (w : World)

/-- The attempts that are left. -/
def attempts (reqBytes : Bytes) (expectMsgID : UInt32) : Nat → Dial Bytes
  | 0 => do
      let tries := (← session).retransmitTries
      Proc.raise s!"session: no response after {tries} retransmits"
  | n + 1 => do
      sendDatagram w reqBytes
      Proc.recover (recvMatching expectMsgID) do
        if ← ctxDone then Proc.raise "context canceled"
        else attempts reqBytes expectMsgID n

/-- Send a request and wait for the response with its Message ID. -/
def exchange (reqBytes : Bytes) (expectMsgID : UInt32) : Dial Bytes := do
  attempts w reqBytes expectMsgID (← session).retransmitTries

/-- Encrypt under the IKE SA. -/
def encodeSK (exchange : ExchangeType) (flags : Flags) (msgID : UInt32) (inner : Payloads) :
    Dial Bytes := fun d =>
  match d.s.ikeSA with
  | none => (.error .panic, d)
  | some ike =>
      let r := encodeSKWith c ike (w.rand d.reads) d.s.initiatorSPI d.s.responderSPI exchange flags
        msgID inner
      let d' := d.spend ike r.2
      match r.1 with
      | .error e => (.error e, d')
      | .ok raw =>
          let ctx := { sa := ike, spii := d.s.initiatorSPI, spir := d.s.responderSPI }
          (.ok raw, { d' with log := .sealed ctx exchange flags msgID inner raw :: d.log })

/-- Decode under the IKE SA.  There is no superseded one yet. -/
def decodeSK (raw : Bytes) : Dial Payloads := fun d =>
  match d.s.ikeSA with
  | none => (.error .panic, d)
  | some ike =>
      match (decodeSKWith c ike raw).1 with
      | .error e => (.error e, d)
      | .ok (_, inner) => (.ok inner, { d with log := .heard inner :: d.log })

/-- Send a protected request and return the payloads of the response. -/
def exchangeSK (exchangeType : ExchangeType) (msgID : UInt32) (inner : Payloads) :
    Dial Payloads := do
  let ike ← deref Handshake.ikeSA
  let reqBytes ← encodeSK c w exchangeType (ikeRoleBit ike.role) msgID inner
  let rawResp ← exchange w reqBytes msgID
  decodeSK c rawResp

end

/-! ## What an exchange does -/

theorem unframe_ok (natt : Bool) (raw : Bytes) : ∃ o, unframe natt raw = .ok o := by
  cases natt with
  | false => exact ⟨_, rfl⟩
  | true =>
      obtain ⟨r, hr⟩ := classify_ok raw
      exact ⟨_, by rw [unframe, hr]; rfl⟩

/-- Dropping a datagram is all that can happen to one that does not match. -/
theorem matching_ok (natt : Bool) (k : UInt32) (raw : Bytes) : ∃ o, matching natt k raw = .ok o := by
  obtain ⟨o, ho⟩ := unframe_ok natt raw
  rw [matching, ho, ok_bind]
  cases o with
  | none => exact ⟨_, rfl⟩
  | some ike =>
      dsimp only
      cases hp : parse ike with
      | error e =>
          obtain ⟨text, rfl⟩ := parse_safe ike e hp
          exact ⟨_, rfl⟩
      | ok hdr =>
          dsimp only
          split
          · exact ⟨_, rfl⟩
          split <;> exact ⟨_, rfl⟩

theorem matching_eq_some {natt : Bool} {k : UInt32} {raw ike : Bytes}
    (h : matching natt k raw = .ok (some ike)) :
    unframe natt raw = .ok (some ike) ∧
      ∃ m, parse ike = .ok m ∧ m.messageID = k ∧ m.flags.isResponse = true := by
  rw [matching, bind_eq_ok] at h
  obtain ⟨o, ho, h⟩ := h
  cases o with
  | none => cases h
  | some b =>
      dsimp only at h
      cases hp : parse b with
      | error e =>
          rw [hp] at h
          cases e <;> cases h
      | ok hdr =>
          rw [hp] at h
          dsimp only at h
          split at h
          · cases h
          split at h
          · cases h
          rename_i hid hresp
          cases h
          exact ⟨ho, hdr, hp, not_ne_iff.mp hid, by simpa using hresp⟩

theorem recvMatchingFrom_eq_ok {natt : Bool} {k : UInt32} {l rest : List Arrival} {ike : Bytes}
    (h : recvMatchingFrom natt k l = (.ok ike, rest)) :
    ∃ pre raw, l = pre ++ .datagram raw :: rest ∧ matching natt k raw = .ok (some ike) := by
  induction l with
  | nil => cases congrArg Prod.fst h
  | cons a l ih =>
      cases a with
      | failed text => cases congrArg Prod.fst h
      | cancelled => cases congrArg Prod.fst h
      | datagram raw =>
          obtain ⟨o, ho⟩ := matching_ok natt k raw
          cases o with
          | none =>
              simp only [recvMatchingFrom, ho] at h
              obtain ⟨pre, raw', rfl, hraw'⟩ := ih h
              exact ⟨.datagram raw :: pre, raw', rfl, hraw'⟩
          | some b =>
              simp only [recvMatchingFrom, ho, Prod.mk.injEq, Except.ok.injEq] at h
              obtain ⟨rfl, rfl⟩ := h
              exact ⟨[], raw, rfl, ho⟩

/-- Receiving takes arrivals off the front. -/
theorem recvMatchingFrom_suffix (natt : Bool) (k : UInt32) (l : List Arrival) :
    (recvMatchingFrom natt k l).2 <:+ l := by
  induction l with
  | nil => exact List.suffix_rfl
  | cons a l ih =>
      cases a with
      | failed text => exact List.suffix_cons _ _
      | cancelled => exact List.suffix_rfl
      | datagram raw =>
          obtain ⟨o, ho⟩ := matching_ok natt k raw
          cases o with
          | none =>
              simp only [recvMatchingFrom, ho]
              exact ih.trans (List.suffix_cons _ _)
          | some b =>
              simp only [recvMatchingFrom, ho]
              exact List.suffix_cons _ _

section

variable {c : Crypto} {w : World}

/-- One attempt, and those after it. -/
theorem attempts_succ (req : Bytes) (k : UInt32) (n : Nat) (d : Dialing) :
    attempts w req k (n + 1) d =
      let r := recvMatchingFrom d.s.nattMode k d.inbox
      let d₁ := { d with sent := d.s.frame req :: d.sent }
      let d₂ := { d₁ with inbox := r.2 }
      if w.sendOK d.sent.length then
        match r.1 with
        | .ok ike => (.ok ike, d₂)
        | .error (.err _) =>
            if r.2.head? = some .cancelled then (fail "context canceled", d₂)
            else attempts w req k n d₂
        | .error e => (.error e, d₂)
      else (fail "transport: send failed", d₁) := by
  dsimp only
  have hsend : sendDatagram w req d = (if w.sendOK d.sent.length then .ok ()
      else fail "transport: send failed", { d with sent := d.s.frame req :: d.sent }) := rfl
  split
  · rename_i hok
    rw [if_pos hok] at hsend
    rw [attempts, Proc.bind_of_ok hsend]
    simp only [Proc.recover, recvMatching]
    cases hr : (recvMatchingFrom d.s.nattMode k d.inbox).1 with
    | ok ike => rfl
    | error e =>
        cases e with
        | err text =>
            have hdone (d' : Dialing) :
                ctxDone d' = (.ok (d'.inbox.head? == some .cancelled), d') := rfl
            dsimp only
            rw [Proc.bind_of_ok (hdone _)]
            by_cases hc : (recvMatchingFrom d.s.nattMode k d.inbox).2.head? = some .cancelled
            · simp only [hc, if_true, beq_self_eq_true]
              rfl
            · simp only [hc, if_false, beq_iff_eq]
        | panic => rfl
        | diverge => rfl
  · rename_i hok
    rw [if_neg hok] at hsend
    rw [attempts, Proc.bind_of_error hsend]
    rfl

/-- An exchange sends and receives, and leaves the session as it is. -/
theorem attempts_frame (req : Bytes) (k : UInt32) (n : Nat) (d : Dialing) :
    ∃ sent inbox, (attempts w req k n d).2 = { d with sent, inbox } := by
  induction n generalizing d with
  | zero => exact ⟨_, _, rfl⟩
  | succ n ih =>
      rw [attempts_succ]
      dsimp only
      split
      · split
        · exact ⟨_, _, rfl⟩
        · split
          · exact ⟨_, _, rfl⟩
          · exact ih _
        · exact ⟨_, _, rfl⟩
      · exact ⟨_, _, rfl⟩

theorem exchange_frame (req : Bytes) (k : UInt32) (d : Dialing) :
    ∃ sent inbox, (exchange w req k d).2 = { d with sent, inbox } :=
  attempts_frame req k _ d

/-- An exchange that succeeds: the request was the last datagram sent, and the
response is the last one that was received. -/
structure Exchanged (req : Bytes) (k : UInt32) (d : Dialing) (ike : Bytes) (d' : Dialing) :
    Prop where
  frame : ∃ sent inbox, d' = { d with sent, inbox }
  last : d'.sent.head? = some (d.s.frame req)
  received : ∃ pre raw, d.inbox = pre ++ .datagram raw :: d'.inbox ∧
    matching d.s.nattMode k raw = .ok (some ike)

theorem attempts_eq_ok {req ike : Bytes} {k : UInt32} {n : Nat} {d d' : Dialing}
    (h : attempts w req k n d = (.ok ike, d')) : Exchanged req k d ike d' := by
  induction n generalizing d with
  | zero => cases congrArg Prod.fst h
  | succ n ih =>
      rw [attempts_succ] at h
      dsimp only at h
      split at h
      · split at h
        · rename_i ike' hr
          simp only [Prod.mk.injEq, Except.ok.injEq] at h
          obtain ⟨rfl, rfl⟩ := h
          obtain ⟨pre, raw, hin, hraw⟩ := recvMatchingFrom_eq_ok (Prod.ext hr rfl)
          exact ⟨⟨_, _, rfl⟩, rfl, pre, raw, hin, hraw⟩
        · split at h
          · cases congrArg Prod.fst h
          · rename_i text hr hc
            obtain ⟨⟨sent, inbox, hd'⟩, hlast, pre, raw, hin, hraw⟩ := ih h
            obtain ⟨dropped, hdropped⟩ := recvMatchingFrom_suffix d.s.nattMode k d.inbox
            refine ⟨⟨sent, inbox, hd'⟩, hlast, dropped ++ pre, raw, ?_, hraw⟩
            dsimp only at hin
            rw [List.append_assoc, ← hin, hdropped]
        · cases congrArg Prod.fst h
      · cases congrArg Prod.fst h

theorem exchange_eq_ok {req ike : Bytes} {k : UInt32} {d d' : Dialing}
    (h : exchange w req k d = (.ok ike, d')) : Exchanged req k d ike d' :=
  attempts_eq_ok h

end

end Dial

/-! ## An instance -/

open Crypto.Sample in
/-- An outside whose libraries can be evaluated.  They protect nothing. -/
def sampleWorld : World where
  rand n := some fun i => UInt8.ofNat (n + i)
  sendOK _ := true
  migrates := true
  localHash _ _ := List.replicate 20 1
  remoteHash _ _ := List.replicate 20 2
  eap := {
    generateNTResponse := fun a p u pw => .ok ((digest (a ++ p) (u ++ pw)).take 24)
    toUTF16 := .ok
    ntPasswordHash := fun b => (digest b []).take 16
    generateAuthenticatorResponse := fun a p nt _ _ => .ok ([0x53, 0x3D] ++ digest (a ++ p) nt)
    getMasterKey := fun phh nt => (digest phh nt).take 16
    getAsymmetricStartKey := fun m send => .ok ((digest m [if send then 1 else 0]).take 16)
    quote := fun _ => "" }
  x509 := {
    Certificate := Bytes
    parseCertificate := .ok
    verify := fun _ _ => .ok ()
    extKeyUsage := fun _ => []
    unknownExtKeyUsage := fun _ => []
    verifyHostname := fun _ _ => .ok ()
    verifyAddr := fun _ _ => .ok ()
    emailAddresses := fun _ => []
    rawSubject := id
    checkSignature := fun cert _ signed sig => if sig = digest cert signed then .ok () else fail ""
    signatureAlgorithm := fun _ => .ok .sha1WithRSA
    quote := fun _ => ""
    addrString := fun _ => "" }

end Session

end GoIpsec
