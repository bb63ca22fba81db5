import GoIpsec.Lib.Crypto
import GoIpsec.Lib.Proc

/-!
# EAP-MSCHAPv2

The packets of the inner authentication, the conversation from the side of the
peer, and the key that comes out of it.

A conversation keeps what its last challenge produced: the two inputs of the key
and the response it expects of the server.  A challenge overwrites all of it.  That
the server has answered a challenge is kept in one flag, which is never reset.

The password functions of the two RFCs are a library (`Library`).  Nothing is
assumed of them.
-/

namespace GoIpsec.Eap

open Golang

def codeRequest : UInt8 := 1
def codeResponse : UInt8 := 2
def codeSuccess : UInt8 := 3
def codeFailure : UInt8 := 4

def typeIdentity : UInt8 := 1
def typeNotification : UInt8 := 2
def typeMSCHAPv2 : UInt8 := 26

def opChallenge : UInt8 := 1
def opResponse : UInt8 := 2
def opSuccess : UInt8 := 3
def opFailure : UInt8 := 4

def authChallengeLen : Nat := 16
def peerChallengeLen : Nat := 16
def responseValueLen : Nat := 49

/-! ## Packets -/

/-- The body of an EAP payload.  A Success or a Failure has no type and no data. -/
structure Packet where
  code : UInt8
  identifier : UInt8
  type : UInt8 := 0
  data : Bytes := []
deriving Repr, DecidableEq

/-- Decode the body of an EAP payload.  Octets after the declared length are
ignored. -/
def parse (raw : Bytes) : Go Packet :=
  let rawLen := raw.length
  if rawLen < 4 then fail "eap: packet shorter than 4 bytes"
  else do
    let length := (← uint16 (← slice raw 2 4)).toNat
    if length < 4 ∨ length > rawLen then fail s!"eap: bad length field {length} (have {rawLen})"
    else
      let code ← index raw 0
      let identifier ← index raw 1
      if length = 4 then return { code, identifier }
      else
        let type ← index raw 4
        let data ← slice raw 5 length
        return { code, identifier, type, data }

def Packet.marshal (p : Packet) : Bytes :=
  if p.code = codeSuccess ∨ p.code = codeFailure then [p.code, p.identifier] ++ putUint16 4
  else
    [p.code, p.identifier] ++ (putUint16 (UInt16.ofNat (5 + p.data.length)) ++ (p.type :: p.data))

/-! ## The conversation -/

/-- The functions of RFC 2759 and RFC 3079, and the quoting verb of the formatter. -/
structure Library where
  generateNTResponse : (authChallenge peerChallenge username password : Bytes) → Go Bytes
  toUTF16 : (password : Bytes) → Go Bytes
  ntPasswordHash : (password : Bytes) → Bytes
  generateAuthenticatorResponse :
    (authChallenge peerChallenge ntResponse username password : Bytes) → Go Bytes
  getMasterKey : (passwordHashHash ntResponse : Bytes) → Bytes
  /-- The start key of 128 bits. -/
  getAsymmetricStartKey : (masterKey : Bytes) → (isSend : Bool) → Go Bytes
  quote : (message : Bytes) → String

/-- A conversation from the side of the peer. -/
structure MSCHAPv2 where
  username : Bytes
  password : Bytes
  peerChallenge : Bytes := []
  ntResponse : Bytes := []
  authChallenge : Bytes := []
  passwordHashHash : Bytes := []
  /-- What the server has to send back to the last challenge. -/
  authResponse : Bytes := []
  authChecked : Bool := false
deriving Repr, DecidableEq

def newMSCHAPv2 (username password : Bytes) : MSCHAPv2 := { username, password }

/-- `copy` into `n` zero octets. -/
def copied (n : Nat) (b : Bytes) : Bytes := (b ++ List.replicate n 0).take n

/-- The message of a Success or Failure: what follows the header, if there is one. -/
def messageBody (d : Bytes) : Go Bytes := if d.length ≥ 4 then sliceFrom d 4 else sliceFrom d 1

/-- `OpCode | ID | MS-Length(2) | Value-Size | Value | Name`, where the value is
`PeerChallenge(16) | Reserved(8) | NT-Response(24) | Flags(1)`. -/
def responseData (msChapID : UInt8) (peerChallenge ntResponse name : Bytes) : Bytes :=
  let value := copied 16 peerChallenge ++ (List.replicate 8 0 ++ (copied 24 ntResponse ++ [0]))
  let length := 5 + responseValueLen + name.length
  [opResponse, msChapID] ++ (putUint16 (UInt16.ofNat length) ++
    (UInt8.ofNat responseValueLen :: (value ++ name)))

section

variable (lib : Library)

/-- What a challenge is answered with, and what is kept of it. -/
def challenged (authChallenge peerChallenge : Bytes) : Proc MSCHAPv2 Unit := do
  let m ← Proc.get
  let ntResponse ← Proc.wrap "eap: NT-Response: " (Proc.lift
    (lib.generateNTResponse authChallenge peerChallenge m.username m.password))
  Proc.modify fun m => { m with ntResponse }
  let ucs2 ← Proc.lift (lib.toUTF16 m.password)
  Proc.modify fun m =>
    { m with passwordHashHash := lib.ntPasswordHash (lib.ntPasswordHash ucs2) }
  let authResponse ← Proc.wrap "eap: AuthenticatorResponse: " (Proc.lift
    (lib.generateAuthenticatorResponse authChallenge peerChallenge ntResponse m.username m.password))
  Proc.modify fun m => { m with authResponse }

/-- Answer a challenge.  The expectation of the server is that of this challenge
from now on. -/
def handleChallenge (rand : RandRead) (req : Packet) : Proc MSCHAPv2 Packet :=
  let type := req.type
  let d := req.data
  if req.type ≠ typeMSCHAPv2 then Proc.raise s!"eap: expected MSCHAPv2 type, got {type}"
  else if d.length < 5 then Proc.raise "eap: malformed MSCHAPv2 Challenge"
  else do
    let op ← Proc.lift (index d 0)
    if op ≠ opChallenge then Proc.raise "eap: malformed MSCHAPv2 Challenge"
    else
      let msChapID ← Proc.lift (index d 1)
      let valueSize := (← Proc.lift (index d 4)).toNat
      if valueSize ≠ authChallengeLen ∨ d.length < 5 + authChallengeLen then
        Proc.raise s!"eap: bad Challenge value size {valueSize}"
      else
        let authChallenge ← Proc.lift (slice d 5 (5 + authChallengeLen))
        Proc.modify fun m => { m with authChallenge }
        let peerChallenge ← Proc.lift (rand.full peerChallengeLen)
        Proc.modify fun m => { m with peerChallenge }
        challenged lib authChallenge peerChallenge
        let m ← Proc.get
        return { code := codeResponse, identifier := req.identifier, type := typeMSCHAPv2,
                 data := responseData msChapID peerChallenge m.ntResponse m.username }

/-- Check the response of the server.  The message starts with it. -/
def handleSuccess (req : Packet) : Proc MSCHAPv2 Packet :=
  let type := req.type
  let d := req.data
  if req.type ≠ typeMSCHAPv2 then Proc.raise s!"eap: expected MSCHAPv2 type, got {type}"
  else if d.length < 1 then Proc.raise "eap: empty MSCHAPv2 Success"
  else do
    let op ← Proc.lift (index d 0)
    if op = opFailure then
      let text := lib.quote (← Proc.lift (messageBody d))
      Proc.raise s!"eap: server reported MSCHAPv2 failure: {text}"
    else if op ≠ opSuccess then Proc.raise s!"eap: expected MSCHAPv2 Success opcode, got {op}"
    else
      let msg ← Proc.lift (messageBody d)
      let m ← Proc.get
      if m.authResponse.length = 0 then
        -- An empty expectation is the start of every message.
        Proc.raise "eap: unexpected MSCHAPv2 Success before Challenge"
      else if ¬ m.authResponse <+: msg then Proc.raise "eap: server AuthenticatorResponse mismatch"
      else
        Proc.modify fun m => { m with authChecked := true }
        return { code := codeResponse, identifier := req.identifier, type := typeMSCHAPv2,
                 data := [opSuccess] }

end

def MSCHAPv2.identityResponse (m : MSCHAPv2) (req : Packet) : Packet :=
  { code := codeResponse, identifier := req.identifier, type := typeIdentity, data := m.username }

/-- The password-hash-hash and the NT-Response. -/
def MSCHAPv2.mskInputs (m : MSCHAPv2) : Bytes × Bytes := (m.passwordHashHash, m.ntResponse)

def MSCHAPv2.verified (m : MSCHAPv2) : Bool := m.authChecked

/-! ## What a request does -/

def Packet.isChallenge (p : Packet) : Bool :=
  p.type == typeMSCHAPv2 && p.data.head? == some opChallenge

def Packet.isSuccess (p : Packet) : Bool :=
  p.type == typeMSCHAPv2 && p.data.head? == some opSuccess

theorem challenged_keeps (lib : Library) (a p : Bytes) (b : Bool) :
    Proc.Keeps (·.authChecked = b) (challenged lib a p) :=
  .bind .get fun _ => .bind (.wrap (.lift _)) fun _ => .bind (.modify fun _ h => h) fun _ =>
    .bind (.lift _) fun _ => .bind (.modify fun _ h => h) fun _ => .bind (.wrap (.lift _)) fun _ =>
      .modify fun _ h => h

/-- A challenge does not touch the flag. -/
theorem handleChallenge_keeps (lib : Library) (rand : RandRead) (req : Packet) (b : Bool) :
    Proc.Keeps (·.authChecked = b) (handleChallenge lib rand req) :=
  .ite (.raise _) <| .ite (.raise _) <| .bind (.lift _) fun _ => .ite (.raise _) <|
    .bind (.lift _) fun _ => .bind (.lift _) fun _ => .ite (.raise _) <|
      .bind (.lift _) fun _ => .bind (.modify fun _ h => h) fun _ =>
        .bind (.lift _) fun _ => .bind (.modify fun _ h => h) fun _ =>
          .bind (challenged_keeps lib _ _ b) fun _ => .bind .get fun _ => .pure _

/-- A Success is accepted if its message starts with what the last challenge has made us
expect. -/
theorem handleSuccess_eq_ok {lib : Library} {req resp : Packet} {m m' : MSCHAPv2}
    (h : handleSuccess lib req m = (.ok resp, m')) :
    m' = { m with authChecked := true } ∧ m.authResponse ≠ [] ∧
      ∃ msg, messageBody req.data = .ok msg ∧ m.authResponse <+: msg := by
  unfold handleSuccess at h
  dsimp only at h
  obtain ⟨-, h⟩ := Proc.guard_eq_ok h
  obtain ⟨-, h⟩ := Proc.guard_eq_ok h
  obtain ⟨op, m₁, h₁, h⟩ := Proc.bind_eq_ok h
  obtain ⟨-, rfl⟩ := Proc.lift_eq_ok h₁
  split at h
  · obtain ⟨text, m₂, h₂, h⟩ := Proc.bind_eq_ok h
    cases congrArg Prod.fst h
  obtain ⟨-, h⟩ := Proc.guard_eq_ok h
  obtain ⟨msg, m₂, h₂, h⟩ := Proc.bind_eq_ok h
  obtain ⟨hmsg, rfl⟩ := Proc.lift_eq_ok h₂
  obtain ⟨_, m₃, h₃, h⟩ := Proc.bind_eq_ok h
  cases h₃
  obtain ⟨hne, h⟩ := Proc.guard_eq_ok h
  obtain ⟨hstart, h⟩ := Proc.guard_eq_ok h
  cases h
  exact ⟨rfl, fun he => hne (by rw [he]; rfl), msg, hmsg, not_not.mp hstart⟩

/-! ## Requests do not crash -/

theorem parse_safe (raw : Bytes) : Safe (parse raw) := by
  unfold parse
  dsimp only
  split
  · exact Safe.fail _
  refine Safe.slice_bind (by omega) (by omega) fun r hr => ?_
  refine Safe.uint16_bind (by omega) fun length => ?_
  split
  · exact Safe.fail _
  refine Safe.index_bind (by omega) fun code => ?_
  refine Safe.index_bind (by omega) fun identifier => ?_
  split
  · exact Safe.ok _
  refine Safe.index_bind (by omega) fun type => ?_
  exact Safe.slice_bind (by omega) (by omega) fun data _ => Safe.ok _

/-- The password functions end in a value or an error. -/
structure Library.NoCrash (lib : Library) : Prop where
  generateNTResponse : ∀ a p u w, Safe (lib.generateNTResponse a p u w)
  toUTF16 : ∀ w, Safe (lib.toUTF16 w)
  generateAuthenticatorResponse : ∀ a p n u w, Safe (lib.generateAuthenticatorResponse a p n u w)

theorem messageBody_safe {d : Bytes} (h : 1 ≤ d.length) : Safe (messageBody d) := by
  unfold messageBody
  split
  · rw [sliceFrom_ok (by omega)]
    exact Safe.ok _
  · rw [sliceFrom_ok h]
    exact Safe.ok _

theorem challenged_noCrash {lib : Library} (hlib : lib.NoCrash) (a p : Bytes) :
    Proc.NoCrash (challenged lib a p) :=
  .bind .get fun _ => .bind (.wrap _ (.lift (hlib.generateNTResponse _ _ _ _))) fun _ =>
    .bind (.modify _) fun _ => .bind (.lift (hlib.toUTF16 _)) fun _ => .bind (.modify _) fun _ =>
      .bind (.wrap _ (.lift (hlib.generateAuthenticatorResponse _ _ _ _ _))) fun _ => .modify _

theorem handleChallenge_noCrash {lib : Library} (hlib : lib.NoCrash) (rand : RandRead)
    (req : Packet) : Proc.NoCrash (handleChallenge lib rand req) := by
  refine .guard fun _ => .guard fun hlen => ?_
  refine .bind (.lift (Safe.index (by omega))) fun op => .guard fun _ => ?_
  refine .bind (.lift (Safe.index (by omega))) fun msChapID => ?_
  refine .bind (.lift (Safe.index (by omega))) fun valueSize => .guard fun hsize => ?_
  rw [not_or, authChallengeLen] at hsize
  have hvalue : Safe (slice req.data 5 (5 + authChallengeLen)) := by
    rw [authChallengeLen, slice_ok (by omega) (by omega)]
    exact Safe.ok _
  refine .bind (.lift hvalue) fun authChallenge => .bind (.modify _) fun _ => ?_
  refine .bind (.lift (rand.full_safe _)) fun peerChallenge => .bind (.modify _) fun _ => ?_
  exact .bind (challenged_noCrash hlib _ _) fun _ => .bind .get fun _ => .pure _

theorem handleSuccess_noCrash (lib : Library) (req : Packet) :
    Proc.NoCrash (handleSuccess lib req) := by
  refine .guard fun _ => .guard fun hlen => ?_
  have hbody : Safe (messageBody req.data) := messageBody_safe (by omega)
  refine .bind (.lift (Safe.index (by omega))) fun op => ?_
  split
  · exact .bind (.lift hbody) fun _ => .raise _
  refine .guard fun _ => .bind (.lift hbody) fun msg => .bind .get fun m => ?_
  exact .guard fun _ => .guard fun _ => .bind (.modify _) fun _ => .pure _

/-! ## The master session key -/

/-- `MasterReceiveKey | MasterSendKey | 32 zero octets`. -/
def deriveMSK (lib : Library) (passwordHashHash ntResponse : Bytes) : Go Bytes :=
  if passwordHashHash.length = 0 ∨ ntResponse.length = 0 then
    fail "eap: MSK derivation needs password-hash-hash and NT-Response"
  else do
    let master := lib.getMasterKey passwordHashHash ntResponse
    let recvKey ← lib.getAsymmetricStartKey master false
    let sendKey ← lib.getAsymmetricStartKey master true
    return copied 16 recvKey ++ (copied 16 sendKey ++ List.replicate 32 0)

end GoIpsec.Eap
