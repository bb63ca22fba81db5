import GoIpsec.Session.Replacement

/-!
# Accepting a Child SA

A request of the peer for a Child SA is accepted in steps, each of which can fail: a key pair is
drawn for the key exchange, then an SPI and a nonce, and the response is encoded under the IKE SA of
the request.  Up to there nothing is changed that matters to the data plane, and from there the new
Child SA is installed (`acceptChildRekey_of_drawn`).  If one of the steps fails, the live Child SA
stays (`acceptChildRekey_refuses`).
-/

set_option linter.dupNamespace false

namespace GoIpsec.Session

open Golang Ikemsg Ikesa

/-- The Child SA of the session, and what the data plane has been told. -/
def HasChild (child : Option ChildSA) (us : List ChildSAUpdate) (d : Drive) : Prop :=
  d.s.child = child ∧ updates d.log = us

/-! ## What is drawn -/

section

variable (c : Crypto) (env : Env)

/-- The key exchange of a request with the next random read. -/
def drawPFS (reads : Nat) (ke : Option KEPayload) : Go (Option (DH × Bytes)) :=
  match ke with
  | none => return none
  | some ke => do
      let dh ← newDH c ke.group (env.rand reads)
      let shared ← wrapErr "session: Child SA rekey DH: " (dh.shared c ke.data)
      return some (dh, shared)

/-- What is drawn for the response that accepts a request, and the response. -/
structure Drawn (s : Session) (reads : Nat) (slot : Slot) (msgID : UInt32) (req : ChildRekeyRequest)
    (prop : Proposal) (suite : EspSuite) (pfs : Option (DH × Bytes)) (newSPI nr : Bytes) (ctx : IkeCtx)
    (raw : Bytes) : Prop where
  keyExchange : drawPFS c env reads req.ke = .ok pfs
  spi : (env.rand (reads + req.ke.toList.length)).full 4 = .ok newSPI
  nonce : (env.rand (reads + req.ke.toList.length + 1)).full nonceLen = .ok nr
  known : s.ctx slot = some ctx
  response : (encodeSKWith c ctx.sa (env.rand (reads + req.ke.toList.length + 2)) ctx.spii ctx.spir
    exchangeCreateChildSA (ikeRoleBit ctx.sa.role ||| flagResponse) msgID
    (childRekeyAnswer s.cfg.requestIPv6 prop.number suite newSPI nr (pfs.map Prod.fst) req)).1 = .ok raw

end

/-! ## What an answer leaves alone -/

/-- The outstanding exchange, the Child SA, and what the data plane has been told. -/
structure Holds (o : Option PendingExchange) (child : Option ChildSA) (us : List ChildSAUpdate)
    (d : Drive) : Prop where
  pending : d.s.pending = o
  child : d.s.child = child
  told : updates d.log = us

section

variable {c : Crypto} {env : Env} {d : Drive} {child : Option ChildSA} {us : List ChildSAUpdate}
  {slot : Slot} {msgID : UInt32}

namespace Holds

variable {o : Option PendingExchange}

theorem of_silent {α : Type} {x : Drv α} (h : Silent x) : Proc.Keeps (Holds o child us) x := by
  intro d hd
  obtain ⟨hs, hlog⟩ := h d
  exact ⟨hs ▸ hd.pending, hs ▸ hd.child, hlog ▸ hd.told⟩

theorem encoded {exchange : ExchangeType} {flags : Flags} {inner : Payloads} {res : Go Bytes × Drive}
    (h : Encoded c slot exchange flags msgID inner d res) (hd : Holds o child us d) :
    Holds o child us res.2 := by
  cases h with
  | failed e d' n n' hs hlog =>
      exact ⟨by rw [hs]; exact hd.pending, by rw [hs]; exact hd.child, by rw [hlog]; exact hd.told⟩
  | done raw d' n n' ctx hctx hraw hs hlog =>
      exact ⟨by rw [hs]; exact hd.pending, by rw [hs]; exact hd.child, by rw [hlog]; exact hd.told⟩

theorem encodeIn (exchange : ExchangeType) (flags : Flags) (inner : Payloads) :
    Proc.Keeps (Holds o child us) (encodeIn c env slot exchange flags msgID inner) :=
  fun _ hd => hd.encoded (encoded_encodeIn ..)

theorem encodeEmptyIn (exchange : ExchangeType) (flags : Flags) :
    Proc.Keeps (Holds o child us) (encodeEmptyIn c env slot exchange flags msgID) :=
  fun _ hd => hd.encoded (encoded_encodeEmptyIn ..)

theorem recordPeerResponse (raw : Bytes) :
    Proc.Keeps (Holds o child us) (recordPeerResponse slot msgID raw) := by
  intro d hd
  cases slot with
  | cur => exact ⟨hd.pending, hd.child, hd.told⟩
  | old => exact ⟨hd.pending, hd.child, hd.told⟩

theorem answerWith {encode : Drv Bytes} (h : Proc.Keeps (Holds o child us) encode) :
    Proc.Keeps (Holds o child us) (answerWith env slot msgID encode) := by
  have hgive : Proc.Keeps (Holds o child us) (emit .unanswered) :=
    fun _ hd => ⟨hd.pending, hd.child, hd.told⟩
  refine Proc.Keeps.bind (Proc.Keeps.attempt ?_) fun _ => Proc.Keeps.pure ()
  exact (h.onError hgive).bind fun raw => (recordPeerResponse raw).bind fun _ =>
    of_silent (Silent.sendDatagram raw)

theorem responseFlags : Proc.Keeps (Holds o child us) (responseFlags slot) :=
  of_silent (Silent.responseFlags slot)

theorem sendNotifyResponse (protocol : ProtocolID) (type : NotifyType) (data : Bytes) :
    Proc.Keeps (Holds o child us) (sendNotifyResponse c env slot msgID protocol type data) := by
  exact responseFlags.bind fun flags => answerWith (encodeIn _ _ _)

theorem sendInvalidKEPayload :
    Proc.Keeps (Holds o child us) (sendInvalidKEPayload c env slot msgID) :=
  sendNotifyResponse _ _ _

theorem sendTemporaryFailure :
    Proc.Keeps (Holds o child us) (sendTemporaryFailure c env slot msgID) :=
  sendNotifyResponse _ _ _

theorem childRekeyPFS (ke : Option KEPayload) :
    Proc.Keeps (Holds o child us) (childRekeyPFS c env slot msgID ke) := by
  cases ke with
  | none => exact Proc.Keeps.pure none
  | some ke =>
      refine ((of_silent (Silent.newDHFor _)).onError sendTemporaryFailure).bind fun dh => ?_
      exact ((Proc.Keeps.lift _).onError (sendNotifyResponse _ _ _)).bind fun _ => Proc.Keeps.pure _

end Holds

/-- What leaves the session as it is leaves the Child SA alone. -/
theorem HasChild.keeps {α : Type} {x : Drv α} (h : ∀ o, Proc.Keeps (Holds o child us) x) :
    Proc.Keeps (HasChild child us) x := by
  intro d hd
  have hafter := h d.s.pending d ⟨rfl, hd.1, hd.2⟩
  exact ⟨hafter.child, hafter.told⟩

/-! ## Acceptance -/

variable {req : ChildRekeyRequest} {prop : Proposal} {suite : EspSuite} {live : ChildSA}

theorem childRekeyPFS_of_drawPFS {ke : Option KEPayload} {pfs : Option (DH × Bytes)}
    (h : drawPFS c env d.reads ke = .ok pfs) :
    childRekeyPFS c env slot msgID ke d = (.ok pfs, { d with reads := d.reads + ke.toList.length }) := by
  cases ke with
  | none =>
      cases h
      rfl
  | some ke =>
      simp only [drawPFS, bind_eq_ok, pure_eq_ok, Except.ok.injEq] at h
      obtain ⟨dh, hdh, shared, hshared, rfl⟩ := h
      have hnew : newDHFor c env ke.group d = (.ok dh, { d with reads := d.reads + 1 }) :=
        congrArg (·, { d with reads := d.reads + 1 }) hdh
      have hsecret (d' : Drive) : Proc.lift (σ := Drive)
          (wrapErr "session: Child SA rekey DH: " (dh.shared c ke.data)) d' = (.ok shared, d') :=
        congrArg (·, d') hshared
      rw [childRekeyPFS, Proc.bind_of_ok (Proc.onError_of_ok hnew),
        Proc.bind_of_ok (Proc.onError_of_ok (hsecret _))]
      rfl

theorem childRekeyPFS_failed {ke : Option KEPayload} {e : Fault}
    (h : drawPFS c env d.reads ke = .error e) :
    ∃ e', (childRekeyPFS c env slot msgID ke d).1 = .error e' := by
  cases ke with
  | none => cases h
  | some ke =>
      rw [drawPFS] at h
      cases hdh : newDH c ke.group (env.rand d.reads) with
      | error e' =>
          have hnew : (newDHFor c env ke.group d).1 = .error e' := hdh
          obtain ⟨e'', he''⟩ := Proc.onError_fst_of_error (y := sendTemporaryFailure c env slot msgID) hnew
          exact ⟨e'', by rw [childRekeyPFS, Proc.bind_of_error (Prod.ext he'' rfl)]⟩
      | ok dh =>
          rw [hdh, ok_bind] at h
          cases hshared : wrapErr "session: Child SA rekey DH: " (dh.shared c ke.data) with
          | ok shared =>
              rw [hshared] at h
              cases h
          | error e' =>
              have hnew : newDHFor c env ke.group d = (.ok dh, { d with reads := d.reads + 1 }) :=
                congrArg (·, { d with reads := d.reads + 1 }) hdh
              have hlift : (Proc.lift (wrapErr "session: Child SA rekey DH: " (dh.shared c ke.data))
                  { d with reads := d.reads + 1 }).1 = .error e' := hshared
              obtain ⟨e'', he''⟩ := Proc.onError_fst_of_error
                (y := sendNotifyResponse c env slot msgID protocolNone notifyInvalidSyntax []) hlift
              exact ⟨e'', by
                rw [childRekeyPFS, Proc.bind_of_ok (Proc.onError_of_ok hnew),
                  Proc.bind_of_error (Prod.ext he'' rfl)]⟩

theorem installAnswered_installs (hdp : d.s.dataPlane = true) (pfs : Option DH) (u : ChildSAUpdate)
    (new : ChildSA) (raw : Bytes) :
    updates (installAnswered env slot msgID pfs u new raw d).2.log = u :: updates d.log := by
  have hview : (installAnswered env slot msgID pfs u new raw d).2.view {} = _ :=
    installAnswered_view hdp {}
  exact congrArg (fun m => updates m.log) hview

/-- Without a data plane nothing is installed. -/
theorem installAnswered_panics (hdp : d.s.dataPlane = false) (hd : HasChild child us d)
    (pfs : Option DH) (u : ChildSAUpdate) (new : ChildSA) (raw : Bytes) :
    HasChild child us (installAnswered env slot msgID pfs u new raw d).2 := by
  have hpanic {β : Type} (f : Unit → Drv β) (d' : Drive) (hdp' : d'.s.dataPlane = false)
      (hd' : HasChild child us d') :
      HasChild child us ((installChildSA .responder slot msgID u >>= f) d').2 := by
    have hx : installChildSA .responder slot msgID u d' = (.error .panic, d') := by
      rw [installChildSA, run_session_bind, if_neg (by rw [hdp']; decide)]
      rfl
    rw [Proc.bind_of_error hx]
    exact hd'
  unfold installAnswered
  rw [run_setSession_bind]
  cases pfs with
  | none => exact hpanic _ _ hdp hd
  | some dh => exact hpanic _ _ hdp hd

theorem randBytes_of_full {n k : Nat} {b : Bytes} (h : (env.rand k).full n = .ok b) :
    randBytes env n { d with reads := k } = (.ok b, { d with reads := k + 1 }) :=
  congrArg (·, { d with reads := k + 1 }) h

theorem responseFlags_of_ctx {ctx : IkeCtx} (h : d.s.ctx slot = some ctx) (k : Nat) :
    responseFlags slot { d with reads := k } =
      (.ok (ikeRoleBit ctx.sa.role ||| flagResponse), { d with reads := k }) := by
  rw [responseFlags, run_session_bind, h]
  rfl

/-- Acceptance up to the response: from there a request goes on to the install. -/
theorem acceptChildRekey_of_drawn {pfs : Option (DH × Bytes)} {newSPI nr raw : Bytes} {ctx : IkeCtx}
    (live : ChildSA) (hlen : prop.spi.length = 4) (hsuite : suite ∈ espSuites)
    (h : Drawn c env d.s d.reads slot msgID req prop suite pfs newSPI nr ctx raw) :
    ∃ d₁ u new, d₁.s.dataPlane = d.s.dataPlane ∧ HasChild d.s.child (updates d.log) d₁ ∧
      acceptChildRekey c env slot msgID live req prop suite d =
        installAnswered env slot msgID (pfs.map Prod.fst) u new raw d₁ := by
  obtain ⟨hpfs, hnewSPI, hnr, hctx, hraw⟩ := h
  obtain ⟨serverNewSPI, hspi⟩ := uint32_ok (b := prop.spi) (by omega)
  obtain ⟨newInSPI, hnew⟩ := uint32_ok (b := newSPI) (by rw [RandRead.full_length hnewSPI])
  obtain ⟨keys, hkeys⟩ := ctx.sa.deriveChildKeys_ok c ((pfs.map Prod.snd).getD []) req.ni nr
    (keyLen_espSuites hsuite)
  have hencode : ∃ d₁, encodeIn c env slot exchangeCreateChildSA
      (ikeRoleBit ctx.sa.role ||| flagResponse) msgID
      (childRekeyAnswer d.s.cfg.requestIPv6 prop.number suite newSPI nr (pfs.map Prod.fst) req)
      { d with reads := d.reads + req.ke.toList.length + 1 + 1 } = (.ok raw, d₁) ∧
        d₁.s.dataPlane = d.s.dataPlane := by
    unfold encodeIn
    rw [hctx]
    dsimp only
    rw [hraw]
    exact ⟨_, rfl, by cases slot <;> rfl⟩
  obtain ⟨d₁, hx, hdp⟩ := hencode
  have hkept : HasChild d.s.child (updates d.log) (Except.ok (ε := Fault) raw, d₁).2 := by
    rw [← hx]
    exact HasChild.keeps (fun _ => Holds.encodeIn _ _ _) _ ⟨rfl, rfl⟩
  rw [acceptChildRekey, Proc.bind_lift_of_ok hspi, Proc.bind_of_ok (childRekeyPFS_of_drawPFS hpfs),
    Proc.bind_of_ok (Proc.onError_of_ok (randBytes_of_full hnewSPI)), Proc.bind_lift_of_ok hnew,
    Proc.bind_of_ok (Proc.onError_of_ok (randBytes_of_full hnr)), run_session_bind,
    Proc.bind_of_ok (responseFlags_of_ctx hctx _)]
  dsimp only
  rw [Proc.bind_of_ok (Proc.onError_of_ok hx), hctx]
  dsimp only
  rw [Proc.bind_lift_of_ok hkeys]
  exact ⟨d₁, _, _, hdp, hkept, rfl⟩

/-- A request for which no response can be made leaves the Child SA alone. -/
theorem acceptChildRekey_refuses (hlen : prop.spi.length = 4)
    (h : ∀ pfs newSPI nr ctx raw,
      ¬ Drawn c env d.s d.reads slot msgID req prop suite pfs newSPI nr ctx raw)
    (hd : HasChild child us d) :
    HasChild child us (acceptChildRekey c env slot msgID live req prop suite d).2 := by
  have hkept (k : Nat) : HasChild child us { d with reads := k } := hd
  obtain ⟨serverNewSPI, hspi⟩ := uint32_ok (b := prop.spi) (by omega)
  rw [acceptChildRekey, Proc.bind_lift_of_ok hspi]
  cases hpfs : drawPFS c env d.reads req.ke with
  | error e =>
      obtain ⟨e', he'⟩ : ∃ e', (childRekeyPFS c env slot msgID req.ke d).1 = .error e' :=
        childRekeyPFS_failed hpfs
      exact (HasChild.keeps fun _ => Holds.childRekeyPFS req.ke).bind_of_error hd he'
  | ok pfs =>
  rw [Proc.bind_of_ok (childRekeyPFS_of_drawPFS hpfs)]
  cases hnewSPI : (env.rand (d.reads + req.ke.toList.length)).full 4 with
  | error e =>
      exact (HasChild.keeps fun _ => Holds.of_silent (Silent.randBytes 4)).onError_bind_of_error
        (HasChild.keeps fun _ => Holds.sendTemporaryFailure) (hkept _) hnewSPI
  | ok newSPI =>
  obtain ⟨newInSPI, hnew⟩ := uint32_ok (b := newSPI) (by rw [RandRead.full_length hnewSPI])
  rw [Proc.bind_of_ok (Proc.onError_of_ok (randBytes_of_full hnewSPI)), Proc.bind_lift_of_ok hnew]
  cases hnr : (env.rand (d.reads + req.ke.toList.length + 1)).full nonceLen with
  | error e =>
      exact (HasChild.keeps fun _ => Holds.of_silent (Silent.randBytes nonceLen)).onError_bind_of_error
        (HasChild.keeps fun _ => Holds.sendTemporaryFailure) (hkept _) hnr
  | ok nr =>
  rw [Proc.bind_of_ok (Proc.onError_of_ok (randBytes_of_full hnr)), run_session_bind]
  cases hctx : d.s.ctx slot with
  | none =>
      have hflags (k : Nat) : (responseFlags slot { d with reads := k }).1 = .error .panic := by
        rw [responseFlags, run_session_bind, hctx]
        rfl
      exact (HasChild.keeps fun _ => Holds.responseFlags).bind_of_error (hkept _) (hflags _)
  | some ctx =>
      cases hraw : (encodeSKWith c ctx.sa (env.rand (d.reads + req.ke.toList.length + 2)) ctx.spii
          ctx.spir exchangeCreateChildSA (ikeRoleBit ctx.sa.role ||| flagResponse) msgID
          (childRekeyAnswer d.s.cfg.requestIPv6 prop.number suite newSPI nr (pfs.map Prod.fst) req)).1 with
      | ok raw => exact (h pfs newSPI nr ctx raw ⟨hpfs, hnewSPI, hnr, hctx, hraw⟩).elim
      | error e =>
          have hencode : (encodeIn c env slot exchangeCreateChildSA
              (ikeRoleBit ctx.sa.role ||| flagResponse) msgID
              (childRekeyAnswer d.s.cfg.requestIPv6 prop.number suite newSPI nr (pfs.map Prod.fst) req)
              { d with reads := d.reads + req.ke.toList.length + 1 + 1 }).1 = .error e := by
            unfold encodeIn
            rw [hctx]
            dsimp only
            rw [hraw]
          rw [Proc.bind_of_ok (responseFlags_of_ctx hctx _)]
          exact (HasChild.keeps fun _ => Holds.encodeIn _ _ _).onError_bind_of_error (fun _ hd => hd)
            (hkept _) hencode

/-! ## The message -/

variable {inner : Payloads}

theorem handleCreateChildSA_child {d : Drive} (hike : isIKERekey inner = false) :
    (handleCreateChildSA c env msgID inner slot d).2 =
      if d.s.pending.any fun p => p.kind.isRekey then (sendTemporaryFailure c env slot msgID d).2
      else (handleChildRekeyRequest c env msgID inner slot d).2 := by
  unfold handleCreateChildSA
  rw [run_session_bind]
  split
  · rfl
  · rw [if_neg (by rw [hike]; decide)]
    exact Proc.attempt_bind_pure_snd ..

variable {raw : Bytes} {hdr : Message}

/-- The state in which a decoded message is acted on. -/
def heard (env : Env) (d : Drive) : Drive :=
  { d with s := { d.s with lastInbound := env.clock .inbound } }

/-- The state in which a request is processed. -/
def taken (env : Env) (slot : Slot) (msgID : UInt32) (d : Drive) : Drive :=
  { heard env d with log := .handling slot msgID :: d.log }

theorem handleInbound_decoded (hdecode : d.s.decodeIKE c env raw = .ok (hdr, inner, slot)) :
    handleInbound c env raw d = dispatch c env hdr inner slot (heard env d) := by
  rw [handleInbound, run_session_bind, hdecode]
  dsimp only
  rw [run_setSession_bind]
  rfl

theorem handleInbound_request (hdecode : d.s.decodeIKE c env raw = .ok (hdr, inner, slot))
    (hexchange : hdr.exchange = exchangeCreateChildSA) (hreq : hdr.flags.isResponse = false) :
    handleInbound c env raw d =
      takeUp env hdr.messageID slot (do
        handleCreateChildSA c env hdr.messageID inner slot
        return false) (heard env d) := by
  rw [handleInbound_decoded hdecode, dispatch, if_neg (by rw [hexchange]; decide), if_pos hexchange,
    if_neg (by rw [hreq]; decide)]

/-- Whatever the processing of a request leaves, the rest of the turn keeps it. -/
theorem handleInbound_fresh {P : Drive → Prop} (hP : ∀ d, P d → P { d with log := .handled :: d.log })
    (hdecode : d.s.decodeIKE c env raw = .ok (hdr, inner, slot))
    (hexchange : hdr.exchange = exchangeCreateChildSA) (hreq : hdr.flags.isResponse = false)
    (hike : isIKERekey inner = false) (hfresh : ¬ (d.s.dedup slot).covers hdr.messageID)
    (h : P (if d.s.pending.any fun p => p.kind.isRekey then
        (sendTemporaryFailure c env slot hdr.messageID (taken env slot hdr.messageID d)).2
      else (handleChildRekeyRequest c env hdr.messageID inner slot (taken env slot hdr.messageID d)).2)) :
    P (handleInbound c env raw d).2 := by
  have hstate : P (handleCreateChildSA c env hdr.messageID inner slot
      (taken env slot hdr.messageID d)).2 := by
    rw [handleCreateChildSA_child hike]
    exact h
  rw [handleInbound_request hdecode hexchange hreq, takeUp,
    Proc.bind_of_ok (dedupPeerRequest_fresh (d := heard env d) hfresh)]
  refine Proc.Keeps.bind_snd (x := do
    handleCreateChildSA c env hdr.messageID inner slot
    return false) (s := taken env slot hdr.messageID d) ?_ fun _ d' hd => hP d' hd
  exact Proc.Keeps.bind_snd hstate fun _ _ hd => hd

end

end GoIpsec.Session
