import GoIpsec.Session.Acceptance
import GoIpsec.Session.Encodable

/-!
# Which Child SA a request supersedes

A peer that rekeys a Child SA names it, in a notify with one of its SPIs.  The handler of
such requests does not look for the notify.  Whatever Child SA the peer asks for takes the
place of the live one: it is installed as its successor, and the live one is removed after
the grace period.

`Serves` says when that happens, of the session, the request and the random source.  It does
not mention the notify.
-/

set_option linter.dupNamespace false

namespace GoIpsec.Session

open Golang Ikemsg Ikesa

/-- Whether the octets are one of the SPIs of the Child SA. -/
def spiRefsChild (raw : Bytes) (child : ChildSA) : Bool :=
  raw.length == 4 &&
    match uint32 raw with
    | .ok spi => spi == child.responderSPI || spi == child.initiatorSPI
    | .error _ => false

/-- Whether the notify says that the Child SA is rekeyed.  The SPI stands in the field for
it, or with some peers in the data. -/
def rekeyRefsChild (n : NotifyPayload) (child : ChildSA) : Bool :=
  n.type == notifyRekeySA && (spiRefsChild n.spi child || spiRefsChild n.data child)

/-- Whether the request names the live Child SA. -/
def namesLive (s : Session) (inner : Payloads) : Bool :=
  s.child.any fun child => inner.any fun
    | .notify n => rekeyRefsChild n child
    | _ => false

/-- A request that does not name the live Child SA leaves it alone. -/
def LeavesUnnamed (inner : Payloads) (d d' : Drive) : Prop :=
  namesLive d.s inner = false → HasChild d.s.child (updates d.log) d'

/-! ## When a request is served -/

section

variable (c : Crypto)

/-- A key pair of the group can be drawn, and the public value of the peer is accepted: in group 14
it lies in `[2, p - 2]`, and otherwise X25519 gives a secret, which it does not for a point of low
order. -/
def ValidKE (ke : KEPayload) (rand : RandRead) : Prop :=
  if ke.group = dhGroup14 then
    rand.isSome = true ∧ ke.data.length = modp2048Len ∧ 1 < getBE ke.data ∧ getBE ke.data ≤ modp2048P - 2
  else
    ke.data.length = 32 ∧ ∃ key, rand.full 32 = .ok key ∧ (c.x25519 key ke.data).isSome = true

variable (env : Env)

/-- A request with a supported proposal can be answered.  The key pair, the SPI, the nonce and
the IV of the answer are read in this order from the `reads`-th read on, and there is an IKE SA
that can protect an answer of this size. -/
structure Answerable (s : Session) (reads : Nat) (slot : Slot) (req : ChildRekeyRequest)
    (suite : EspSuite) : Prop where
  keyExchange : ∀ ke, req.ke = some ke → ValidKE c ke (env.rand reads)
  spi : (env.rand (reads + req.ke.toList.length)).isSome = true
  nonce : (env.rand (reads + req.ke.toList.length + 1)).isSome = true
  sealing : ∃ ctx, s.ctx slot = some ctx ∧
    ctx.sa.CanSeal (env.rand (reads + req.ke.toList.length + 2)) ∧
    ctx.sa.sealedLen (answerSize s.cfg.requestIPv6 suite (req.ke.map fun ke => publicLen ke.group) req) ≤
      65531

/-- The request can be accepted: there is a Child SA, a proposal matches, and the answer
can be made. -/
structure Servable (d : Drive) (inner : Payloads) (slot : Slot) : Prop where
  dataPlane : d.s.dataPlane = true
  child : d.s.child ≠ none
  answered : ∃ req prop suite, childRekeyRequestPayloads inner = .ok req ∧
    (req.ke.any fun ke => !supportedDHGroup ke.group) = false ∧
    selectProposal req.sa d.s.enabledESPSuites ((req.ke.map KEPayload.group).getD 0) =
      some (prop, suite) ∧
    Answerable c env d.s d.reads slot req suite

/-- The request is taken up and accepted. -/
structure Serves (d : Drive) (msgID : UInt32) (inner : Payloads) (slot : Slot) : Prop where
  fresh : ¬ (d.s.dedup slot).covers msgID
  idle : (d.s.pending.any fun p => p.kind.isRekey) = false
  servable : Servable c env d inner slot

end

/-! ## What is drawn for an answer -/

section

variable {c : Crypto} {env : Env} {d : Drive} {slot : Slot} {msgID : UInt32} {inner : Payloads}

/-- In group 14 a public value is accepted for its length and its range. -/
theorem shared_modp_ok_iff {dh : DH} {a : Nat} {peer : Bytes} (h : dh.priv = .modp a) :
    (∃ secret, dh.shared c peer = .ok secret) ↔
      peer.length = modp2048Len ∧ 1 < getBE peer ∧ getBE peer ≤ modp2048P - 2 := by
  rw [DH.shared, h]
  dsimp only
  constructor
  · rintro ⟨secret, hsecret⟩
    split at hsecret
    · cases hsecret
    split at hsecret
    · cases hsecret
    exact ⟨not_not.mp ‹_›, by omega, by omega⟩
  · rintro ⟨hlen, hlo, hhi⟩
    rw [if_neg (not_not.mpr hlen), if_neg (by omega)]
    exact ⟨_, rfl⟩

theorem shared_x25519_ok_iff {dh : DH} {key peer : Bytes} (h : dh.priv = .x25519 key) :
    (∃ secret, dh.shared c peer = .ok secret) ↔
      peer.length = 32 ∧ (c.x25519 key peer).isSome = true := by
  rw [DH.shared, h]
  dsimp only
  by_cases hlen : peer.length = 32
  · rw [if_neg (not_not.mpr hlen)]
    cases c.x25519 key peer with
    | some secret => exact ⟨fun _ => ⟨hlen, rfl⟩, fun _ => ⟨secret, rfl⟩⟩
    | none =>
        refine ⟨?_, ?_⟩
        · rintro ⟨secret, hsecret⟩
          cases hsecret
        · rintro ⟨-, hsome⟩
          cases hsome
  · rw [if_pos hlen]
    refine ⟨?_, fun hvalid => absurd hvalid.1 hlen⟩
    rintro ⟨secret, hsecret⟩
    cases hsecret

theorem validKE_iff {ke : KEPayload} {rand : RandRead} (hgroup : supportedDHGroup ke.group = true) :
    ValidKE c ke rand ↔ ∃ dh secret, newDH c ke.group rand = .ok dh ∧ dh.shared c ke.data = .ok secret := by
  unfold ValidKE
  split
  · rename_i h14
    rw [h14] at hgroup ⊢
    constructor
    · rintro ⟨hrand, hvalid⟩
      obtain ⟨dh, hdh⟩ := newDH_ok (c := c) hgroup hrand
      obtain ⟨a, -, -, hpriv, -⟩ := newDH_modp hdh
      obtain ⟨secret, hsecret⟩ := (shared_modp_ok_iff hpriv).mpr hvalid
      exact ⟨dh, secret, hdh, hsecret⟩
    · rintro ⟨dh, secret, hdh, hsecret⟩
      obtain ⟨a, -, -, hpriv, -⟩ := newDH_modp hdh
      rw [newDH, if_pos rfl] at hdh
      obtain ⟨b, hb, -⟩ := bind_eq_ok.mp hdh
      exact ⟨RandRead.isSome_of_full hb, (shared_modp_ok_iff hpriv).mp ⟨secret, hsecret⟩⟩
  · rename_i h14
    have h31 : ke.group = dhGroup31 := by
      have hmem : ke.group = dhX25519 ∨ ke.group = dhMODP2048 := by
        simpa [supportedDHGroup, preferredDHGroups] using hgroup
      exact hmem.resolve_right h14
    rw [newDH, if_neg h14, if_pos h31]
    constructor
    · rintro ⟨hlen, key, hkey, hsome⟩
      obtain ⟨secret, hsecret⟩ : ∃ secret,
          DH.shared c { priv := .x25519 key, pub := c.x25519Public key } ke.data = .ok secret :=
        (shared_x25519_ok_iff rfl).mpr ⟨hlen, hsome⟩
      exact ⟨_, secret, by rw [hkey]; rfl, hsecret⟩
    · rintro ⟨dh, secret, hdh, hsecret⟩
      obtain ⟨key, hkey, hdh⟩ := bind_eq_ok.mp hdh
      cases hdh
      obtain ⟨hlen, hsome⟩ := (shared_x25519_ok_iff rfl).mp ⟨secret, hsecret⟩
      exact ⟨hlen, key, hkey, hsome⟩

theorem drawPFS_ok_iff {ke : Option KEPayload} {reads : Nat}
    (hgroup : (ke.any fun ke => !supportedDHGroup ke.group) = false) :
    (∃ pfs, drawPFS c env reads ke = .ok pfs) ↔ ∀ ke', ke = some ke' → ValidKE c ke' (env.rand reads) := by
  cases ke with
  | none =>
      refine ⟨fun _ ke' h => ?_, fun _ => ⟨none, rfl⟩⟩
      cases h
  | some ke =>
      have hsupported : supportedDHGroup ke.group = true := by simpa using hgroup
      rw [drawPFS]
      simp only [bind_eq_ok, wrapErr_eq_ok, Option.some.injEq, forall_eq', validKE_iff hsupported]
      constructor
      · rintro ⟨pfs, dh, hdh, secret, hsecret, -⟩
        exact ⟨dh, secret, hdh, hsecret⟩
      · rintro ⟨dh, secret, hdh, hsecret⟩
        exact ⟨_, dh, hdh, secret, hsecret, rfl⟩

theorem length_pub_of_drawPFS {ke : Option KEPayload} {reads : Nat} {pfs : Option (DH × Bytes)}
    (h : drawPFS c env reads ke = .ok pfs) :
    ((pfs.map Prod.fst).map fun d => d.pub.length) = ke.map fun ke => publicLen ke.group := by
  cases ke with
  | none =>
      cases h
      rfl
  | some ke =>
      simp only [drawPFS, bind_eq_ok, pure_eq_ok, Except.ok.injEq] at h
      obtain ⟨dh, hdh, shared, -, rfl⟩ := h
      exact congrArg some (length_pub hdh)

/-- An answer is made exactly under these conditions. -/
theorem answerable_iff {s : Session} {reads : Nat} {req : ChildRekeyRequest} {suite : EspSuite}
    (msgID : UInt32) (prop : Proposal) (hinner : ∀ p ∈ inner, p.SelectorsWF)
    (hreq : childRekeyRequestPayloads inner = .ok req)
    (hgroup : (req.ke.any fun ke => !supportedDHGroup ke.group) = false) :
    Answerable c env s reads slot req suite ↔
      ∃ pfs newSPI nr ctx raw, Drawn c env s reads slot msgID req prop suite pfs newSPI nr ctx raw := by
  have hts := ChildRekeyRequest.selectorsWF hinner hreq
  constructor
  · rintro ⟨hke, hspi, hnonce, ctx, hctx, hseal, hfits⟩
    obtain ⟨pfs, hpfs⟩ := (drawPFS_ok_iff hgroup).mpr hke
    obtain ⟨newSPI, hnewSPI⟩ := RandRead.full_ok hspi 4
    obtain ⟨nr, hnr⟩ := RandRead.full_ok hnonce nonceLen
    have hlen := RandRead.full_length hnewSPI
    have hnrlen := RandRead.full_length hnr
    have hsize : (childRekeyAnswer s.cfg.requestIPv6 prop.number suite newSPI nr (pfs.map Prod.fst) req).size =
        _ := size_childRekeyAnswer hlen hnrlen
    rw [← length_pub_of_drawPFS hpfs, ← hsize] at hfits
    obtain ⟨raw, hraw⟩ := (encodeSKWith_ok_iff (legible_childRekeyAnswer hlen hnrlen hts)).mpr ⟨hseal, hfits⟩
    exact ⟨pfs, newSPI, nr, ctx, raw, hpfs, hnewSPI, hnr, hctx, hraw⟩
  · rintro ⟨pfs, newSPI, nr, ctx, raw, hpfs, hnewSPI, hnr, hctx, hraw⟩
    have hlen := RandRead.full_length hnewSPI
    have hnrlen := RandRead.full_length hnr
    obtain ⟨hseal, hfits⟩ := (encodeSKWith_ok_iff (legible_childRekeyAnswer hlen hnrlen hts)).mp ⟨raw, hraw⟩
    rw [size_childRekeyAnswer hlen hnrlen, length_pub_of_drawPFS hpfs] at hfits
    exact ⟨(drawPFS_ok_iff hgroup).mp ⟨pfs, hpfs⟩, RandRead.isSome_of_full hnewSPI,
      RandRead.isSome_of_full hnr, ctx, hctx, hseal, hfits⟩

/-! ## The request -/

theorem handleChildRekeyRequest_serves (msgID : UInt32) (hinner : ∀ p ∈ inner, p.SelectorsWF)
    (h : Servable c env d inner slot) :
    ∃ u, updates (handleChildRekeyRequest c env msgID inner slot d).2.log = u :: updates d.log := by
  obtain ⟨hdp, hchild, req, prop, suite, hreq, hgroup, hselect, hanswer⟩ := h
  obtain ⟨live, hlive⟩ := Option.ne_none_iff_exists'.mp hchild
  obtain ⟨hsuite, -, -, hlen, -⟩ := selectProposal_eq_some hselect
  obtain ⟨pfs, newSPI, nr, ctx, raw, hdrawn⟩ :=
    (answerable_iff msgID prop hinner hreq hgroup).mp hanswer
  obtain ⟨d₁, u, new, hdp₁, hkept, hrun⟩ := acceptChildRekey_of_drawn live hlen
    (mem_of_mem_enabledSuites hsuite) hdrawn
  rw [handleChildRekeyRequest, run_session_bind, hlive]
  dsimp only
  rw [hreq]
  dsimp only
  rw [if_neg (by rw [hgroup]; decide), hselect]
  dsimp only
  rw [hrun]
  exact ⟨u, (installAnswered_installs (hdp₁.trans hdp) ..).trans (congrArg _ hkept.2)⟩

theorem HasChild.refused {child : Option ChildSA} {us : List ChildSAUpdate} {protocol : ProtocolID}
    {type : NotifyType} {data : Bytes} {x : Go Unit} :
    Proc.Keeps (HasChild child us)
      (sendNotifyResponse c env slot msgID protocol type data >>= fun _ => Proc.lift x) :=
  (HasChild.keeps fun _ => Holds.sendNotifyResponse _ _ _).bind fun _ => Proc.Keeps.lift _

theorem handleChildRekeyRequest_refuses (hinner : ∀ p ∈ inner, p.SelectorsWF)
    (h : ¬Servable c env d inner slot) :
    HasChild d.s.child (updates d.log) (handleChildRekeyRequest c env msgID inner slot d).2 := by
  have hd : HasChild d.s.child (updates d.log) d := ⟨rfl, rfl⟩
  rw [handleChildRekeyRequest, run_session_bind]
  cases hlive : d.s.child with
  | none =>
      rw [hlive] at hd
      exact HasChild.refused d hd
  | some live =>
  rw [hlive] at hd
  cases hreq : childRekeyRequestPayloads inner with
  | error e => exact HasChild.refused d hd
  | ok req =>
  dsimp only
  by_cases hgroup : (req.ke.any fun ke => !supportedDHGroup ke.group) = true
  · rw [if_pos hgroup]
    exact HasChild.keeps (fun _ => Holds.sendInvalidKEPayload) d hd
  rw [if_neg hgroup]
  have hsupported := Bool.eq_false_iff.mpr hgroup
  cases hselect : selectProposal req.sa d.s.enabledESPSuites ((req.ke.map KEPayload.group).getD 0) with
  | none =>
      dsimp only
      split
      · exact HasChild.keeps (fun _ => Holds.sendInvalidKEPayload) d hd
      · exact HasChild.refused d hd
  | some choice =>
      obtain ⟨prop, suite⟩ := choice
      obtain ⟨hsuite, -, -, hlen, -⟩ := selectProposal_eq_some hselect
      by_cases hanswer : Answerable c env d.s d.reads slot req suite
      · have hdp : d.s.dataPlane = false := Bool.eq_false_iff.mpr fun hdp => h
          ⟨hdp, by rw [hlive]; exact Option.some_ne_none live, req, prop, suite, hreq, hsupported,
            hselect, hanswer⟩
        obtain ⟨pfs, newSPI, nr, ctx, raw, hdrawn⟩ :=
          (answerable_iff msgID prop hinner hreq hsupported).mp hanswer
        obtain ⟨d₁, u, new, hdp₁, hkept, hrun⟩ := acceptChildRekey_of_drawn live hlen
          (mem_of_mem_enabledSuites hsuite) hdrawn
        rw [hlive] at hkept
        dsimp only
        rw [hrun]
        exact installAnswered_panics (hdp₁.trans hdp) hkept ..
      · refine acceptChildRekey_refuses hlen (fun pfs newSPI nr ctx raw hdrawn => hanswer ?_) hd
        exact (answerable_iff msgID prop hinner hreq hsupported).mpr ⟨pfs, newSPI, nr, ctx, raw, hdrawn⟩

/-! ## The message -/

variable {raw : Bytes} {hdr : Message}

/-- Taking a request up makes no difference to whether it can be accepted. -/
theorem servable_taken :
    Servable c env (taken env slot msgID d) inner slot ↔ Servable c env d inner slot := by
  constructor
  · rintro ⟨hdp, hchild, req, prop, suite, hreq, hgroup, hselect, hke, hspi, hnonce, hseal⟩
    exact ⟨hdp, hchild, req, prop, suite, hreq, hgroup, hselect, hke, hspi, hnonce, hseal⟩
  · rintro ⟨hdp, hchild, req, prop, suite, hreq, hgroup, hselect, hke, hspi, hnonce, hseal⟩
    exact ⟨hdp, hchild, req, prop, suite, hreq, hgroup, hselect, hke, hspi, hnonce, hseal⟩

theorem handleInbound_serves (hdecode : d.s.decodeIKE c env raw = .ok (hdr, inner, slot))
    (hexchange : hdr.exchange = exchangeCreateChildSA) (hreq : hdr.flags.isResponse = false)
    (hike : isIKERekey inner = false) (h : Serves c env d hdr.messageID inner slot) :
    ∃ u, updates (handleInbound c env raw d).2.log = u :: updates d.log := by
  obtain ⟨u, hu⟩ := handleChildRekeyRequest_serves hdr.messageID (Session.decodeIKE_selectorsWF hdecode)
    (servable_taken.mpr h.servable)
  refine ⟨u, handleInbound_fresh (P := fun d' => updates d'.log = u :: updates d.log) (fun _ hd => hd)
    hdecode hexchange hreq hike h.fresh ?_⟩
  rw [if_neg (by rw [h.idle]; decide)]
  exact hu

theorem handleInbound_refuses (hdecode : d.s.decodeIKE c env raw = .ok (hdr, inner, slot))
    (hexchange : hdr.exchange = exchangeCreateChildSA) (hreq : hdr.flags.isResponse = false)
    (hike : isIKERekey inner = false) (h : ¬Serves c env d hdr.messageID inner slot) :
    HasChild d.s.child (updates d.log) (handleInbound c env raw d).2 := by
  by_cases hcovers : (d.s.dedup slot).covers hdr.messageID
  · rw [handleInbound_request hdecode hexchange hreq, takeUp_covered (d := heard env d) _ hcovers]
    exact ⟨rfl, rfl⟩
  refine handleInbound_fresh (fun _ hd => hd) hdecode hexchange hreq hike hcovers ?_
  split
  · exact HasChild.keeps (fun _ => Holds.sendTemporaryFailure) _ ⟨rfl, rfl⟩
  · rename_i hidle
    exact handleChildRekeyRequest_refuses (Session.decodeIKE_selectorsWF hdecode) fun hserv =>
      h ⟨hcovers, Bool.eq_false_iff.mpr hidle, servable_taken.mp hserv⟩

/-- A request for a Child SA leaves the live one alone unless it names it, just if it
names it whenever it is served. -/
theorem superseded_iff_named (c : Crypto) (env : Env) (d : Drive) (raw : Bytes) (hdr : Message)
    (inner : Payloads) (slot : Slot) (hdecode : d.s.decodeIKE c env raw = .ok (hdr, inner, slot))
    (hexchange : hdr.exchange = exchangeCreateChildSA) (hreq : hdr.flags.isResponse = false)
    (hike : isIKERekey inner = false) :
    LeavesUnnamed inner d (handleInbound c env raw d).2 ↔
      (Serves c env d hdr.messageID inner slot → namesLive d.s inner = true) := by
  constructor
  · intro h hserves
    by_contra hunnamed
    obtain ⟨u, hu⟩ := handleInbound_serves hdecode hexchange hreq hike hserves
    have hsame := (h (Bool.eq_false_iff.mpr hunnamed)).2
    exact List.cons_ne_self _ _ (hu.symm.trans hsame)
  · intro h hunnamed
    refine handleInbound_refuses hdecode hexchange hreq hike fun hserves => ?_
    rw [h hserves] at hunnamed
    cases hunnamed

end

/-! ## An additional Child SA -/

/-- The peer asks for one more Child SA, without a word about the live one. -/
def sampleAdditional : Bytes :=
  fromResponder exchangeCreateChildSA 0 0
    (childRekeyRequest espSuites false 0x22 true [0, 0, 0, 0x33] (List.replicate 32 5) none)

/-- Whether the datagram is a request for a Child SA, and names the live one or not. -/
def sampleAsks (raw : Bytes) (named : Bool) : Bool :=
  match (sampleStart .initiator).s.decodeIKE Crypto.sample (sampleEnv 2) raw with
  | .ok (hdr, inner, _) =>
      hdr.exchange == exchangeCreateChildSA && !hdr.flags.isResponse && !isIKERekey inner &&
        namesLive (sampleStart .initiator).s inner == named
  | .error _ => false

theorem decoded_of_sampleAsks (raw : Bytes) (named : Bool) (h : sampleAsks raw named = true) :
    ∃ hdr inner slot,
      (sampleStart .initiator).s.decodeIKE Crypto.sample (sampleEnv 2) raw = .ok (hdr, inner, slot) ∧
        hdr.exchange = exchangeCreateChildSA ∧ hdr.flags.isResponse = false ∧
        isIKERekey inner = false ∧ namesLive (sampleStart .initiator).s inner = named := by
  unfold sampleAsks at h
  split at h
  · rename_i hdr inner slot hdecode
    simp only [Bool.and_eq_true, beq_iff_eq, Bool.not_eq_true'] at h
    exact ⟨hdr, inner, slot, hdecode, h.1.1.1, h.1.1.2, h.1.2, h.2⟩
  · cases h

theorem superseded_iff_named_sample :
    ∃ hdr inner slot, (sampleStart .initiator).s.decodeIKE Crypto.sample (sampleEnv 2) (sampleRequest 0) =
        .ok (hdr, inner, slot) ∧
      LeavesUnnamed inner (sampleStart .initiator)
        (handleInbound Crypto.sample (sampleEnv 2) (sampleRequest 0) (sampleStart .initiator)).2 := by
  obtain ⟨hdr, inner, slot, hdecode, hexchange, hreq, hike, hnamed⟩ :=
    decoded_of_sampleAsks (sampleRequest 0) true (by decide +kernel)
  exact ⟨hdr, inner, slot, hdecode, (superseded_iff_named .sample (sampleEnv 2) (sampleStart .initiator)
    (sampleRequest 0) hdr inner slot hdecode hexchange hreq hike).mpr fun _ => hnamed⟩

/-- The live Child SA gives way to one that was to stand beside it. -/
theorem additional_child_supersedes :
    Run Crypto.sample (fun _ _ _ => True) (sampleStart .initiator) false ∧
    ∃ hdr inner slot, (sampleStart .initiator).s.decodeIKE Crypto.sample (sampleEnv 2) sampleAdditional =
        .ok (hdr, inner, slot) ∧ hdr.exchange = exchangeCreateChildSA ∧
      hdr.flags.isResponse = false ∧ isIKERekey inner = false ∧
      namesLive (sampleStart .initiator).s inner = false ∧
      (handleInbound Crypto.sample (sampleEnv 2) sampleAdditional (sampleStart .initiator)).2.s.child ≠
        (sampleStart .initiator).s.child ∧
      (updates (handleInbound Crypto.sample (sampleEnv 2) sampleAdditional
        (sampleStart .initiator)).2.log).map ChildSAUpdate.oldInSPI = [0x11] := by
  obtain ⟨hdr, inner, slot, hdecode, hexchange, hreq, hike, hnamed⟩ :=
    decoded_of_sampleAsks sampleAdditional false (by decide +kernel)
  exact ⟨.start (starts_sampleStart .initiator), hdr, inner, slot, hdecode, hexchange, hreq, hike,
    hnamed, by decide +kernel, by decide +kernel⟩

end GoIpsec.Session
