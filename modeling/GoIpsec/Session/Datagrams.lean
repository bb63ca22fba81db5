import GoIpsec.Session.Life

/-!
# Where the datagrams come from

A datagram of a session is a request of IKE_SA_INIT or a message that was encoded under an
IKE SA of the session (`Life.Sound`).  A request that is sent again and a response that is
sent for a second time are bytes the session has kept, and all it keeps was encoded before
(`Backed`).

That an SA is used with the SPIs it was derived for is a matter of the cutovers, so it is
shown of the moves of the exchange machine (`Machine.Minted`).
-/

set_option linter.dupNamespace false

namespace GoIpsec.Session

open Golang Ikemsg Ikesa

/-! ## What an encoding leaves -/

/-- Nothing was logged, or a message under the SA of a slot. -/
def Notes (slot : Slot) (ctx : IkeCtx) (log log' : List Event) : Prop :=
  log' = log ∨ ∃ exchange flags msgID inner raw,
    log' = .sealed slot ctx exchange flags msgID inner raw :: log

/-- What an encoding under the SA of a slot makes of a session. -/
inductive Spends (slot : Slot) (d : Drive) : Drive → Prop
  | none : Spends slot d d
  | kept {ctx : IkeCtx} {log : List Event} (hctx : d.s.ctx slot = some ctx)
      (hlog : Notes slot ctx d.log log) (haead : ctx.sa.suite.aead = true → log = d.log) :
      Spends slot d { d with reads := d.reads + 1, log }
  | used {ctx : IkeCtx} {log : List Event} (hctx : d.s.ctx slot = some ctx)
      (hlog : Notes slot ctx d.log log) (haead : ctx.sa.suite.aead = true) :
      Spends slot d { d with
        s := d.s.setSA slot { ctx.sa with skSeq := ctx.sa.skSeq + 1 }
        reads := d.reads + 1
        log
        spent := (lineage d.log).at slot :: d.spent }

section

variable {c : Crypto} {env : Env} {d d' : Drive} {slot : Slot}

theorem setSA_self {s : Session} {ctx : IkeCtx} (hctx : s.ctx slot = some ctx) :
    s.setSA slot ctx.sa = s := by
  cases slot with
  | cur =>
      cases hctx
      rfl
  | old =>
      change s.oldIKE = some ctx at hctx
      have hmap : s.oldIKE.map (fun o => { o with sa := ctx.sa }) = s.oldIKE := by rw [hctx]; rfl
      rw [Session.setSA, hmap]

theorem spends_of_uses {ctx : IkeCtx} {r : Go Bytes × IKESA} (hctx : d.s.ctx slot = some ctx)
    (huses : Uses ctx.sa r) (exchange : ExchangeType) (flags : Flags) (msgID : UInt32)
    (inner : Payloads) :
    Spends slot d (match r.1 with
      | .error e => ((.error e, d.spend slot ctx.sa r.2) : Go Bytes × Drive)
      | .ok raw => (.ok raw, { d.spend slot ctx.sa r.2 with
          log := .sealed slot ctx exchange flags msgID inner raw :: d.log })).2 := by
  cases huses with
  | kept res hres =>
      have hspend : d.spend slot ctx.sa ctx.sa = { d with reads := d.reads + 1 } := by
        rw [Drive.spend, setSA_self hctx, if_pos rfl]
      rw [hspend]
      cases res with
      | error e => exact .kept hctx (.inl rfl) fun _ => rfl
      | ok raw =>
          refine .kept hctx (.inr ⟨_, _, _, _, _, rfl⟩) fun haead => ?_
          exact absurd rfl (hres haead raw)
  | used res haead =>
      have hspend : d.spend slot ctx.sa { ctx.sa with skSeq := ctx.sa.skSeq + 1 } = { d with
          s := d.s.setSA slot { ctx.sa with skSeq := ctx.sa.skSeq + 1 }
          reads := d.reads + 1
          spent := (lineage d.log).at slot :: d.spent } := by
        rw [Drive.spend, if_neg (by simp)]
      rw [hspend]
      cases res with
      | error e => exact .used hctx (.inl rfl) haead
      | ok raw => exact .used hctx (.inr ⟨_, _, _, _, _, rfl⟩) haead

theorem spends_encodeIn (exchange : ExchangeType) (flags : Flags) (msgID : UInt32)
    (inner : Payloads) : Spends slot d (encodeIn c env slot exchange flags msgID inner d).2 := by
  unfold encodeIn
  cases hctx : d.s.ctx slot with
  | none => exact .none
  | some ctx => exact spends_of_uses hctx (uses_encodeSKWith ..) exchange flags msgID inner

theorem spends_encodeEmptyIn (exchange : ExchangeType) (flags : Flags) (msgID : UInt32) :
    Spends slot d (encodeEmptyIn c env slot exchange flags msgID d).2 := by
  unfold encodeEmptyIn
  cases hctx : d.s.ctx slot with
  | none => exact .none
  | some ctx => exact spends_of_uses hctx (uses_encodeSKEmptyWith ..) exchange flags msgID []

/-! ## What a session keeps to be sent -/

/-- Bytes a session keeps: the two requests of ours it may repeat, the two responses, and
the requests that were noted. -/
def Stores (d : Drive) (raw : Bytes) : Prop :=
  (∃ p, d.s.pending = some p ∧ p.raw = raw) ∨ (∃ p, d.s.oldIKEDelete = some p ∧ p.raw = raw) ∨
    (∃ slot, (d.s.dedup slot).set = true ∧ (d.s.dedup slot).resp = raw) ∨
    ∃ msgID idle, .requested msgID raw idle ∈ d.log

theorem Held.stores {raw : Bytes} (h : Held d raw) : Stores d raw := by
  cases h with
  | pending p hp hraw => exact .inl ⟨p, hp, hraw⟩
  | oldDelete p hp hraw => exact .inr (.inl ⟨p, hp, hraw⟩)
  | cached slot hset hraw => exact .inr (.inr (.inl ⟨slot, hset, hraw⟩))
  | noted hlog => exact .inr (.inr (.inr ⟨_, _, by rw [hlog]; exact List.mem_cons_self⟩))

theorem Asked.wasSealed {msgID : UInt32} {raw : Bytes} (h : Asked d msgID raw) :
    WasSealed d.log raw := by
  obtain ⟨ctx, exchange, flags, inner, rest, hlog⟩ := h
  exact ⟨_, _, _, _, _, _, by rw [hlog]; exact List.mem_cons_self⟩

/-- All that was sent, and all that is kept to be sent, was encoded. -/
structure Backed (d : Drive) : Prop where
  stores : ∀ raw, Stores d raw → WasSealed d.log raw
  sent : ∀ b ∈ d.sent, IsSAInit b ∨ ∃ raw, WasSealed d.log raw ∧ b = d.life.frame raw

namespace Backed

/-- The session may keep other bytes, if they were encoded. -/
theorem keep (h : Backed d) {s : Session} (hnatt : s.nattMode = d.s.nattMode)
    (hstores : ∀ raw, Stores { d with s } raw → Stores d raw ∨ WasSealed d.log raw) :
    Backed { d with s } where
  stores raw hraw := (hstores raw hraw).elim (h.stores raw) id
  sent b hb := by
    refine (h.sent b hb).imp_right fun ⟨raw, hraw, hb'⟩ => ⟨raw, hraw, hb'.trans ?_⟩
    change (if d.s.nattMode then _ else _) = if s.nattMode then _ else _
    rw [hnatt]

/-- An event is logged.  A request of ours was encoded. -/
theorem log (h : Backed d) {e : Event}
    (he : ∀ msgID raw idle, e = .requested msgID raw idle → WasSealed d.log raw) :
    Backed { d with log := e :: d.log } where
  stores raw hraw := by
    have hlog : d.log ⊆ e :: d.log := List.subset_cons_self _ _
    rcases hraw with hp | hp | hp | ⟨msgID, idle, hmem⟩
    · exact (h.stores raw (.inl hp)).mono hlog
    · exact (h.stores raw (.inr (.inl hp))).mono hlog
    · exact (h.stores raw (.inr (.inr (.inl hp)))).mono hlog
    · rcases List.mem_cons.mp hmem with heq | hmem
      · exact (he msgID raw idle heq.symm).mono hlog
      · exact (h.stores raw (.inr (.inr (.inr ⟨msgID, idle, hmem⟩)))).mono hlog
  sent b hb := (h.sent b hb).imp_right fun ⟨raw, hraw, hb'⟩ =>
    ⟨raw, hraw.mono (List.subset_cons_self _ _), hb'⟩

theorem spends (h : Backed d) (hspends : Spends slot d d') : Backed d' := by
  have hnote {ctx : IkeCtx} {log : List Event} (hlog : Notes slot ctx d.log log) :
      Backed { d with log } := by
    rcases hlog with rfl | ⟨exchange, flags, msgID, inner, raw, rfl⟩
    · exact h
    · exact h.log nofun
  cases hspends with
  | none => exact h
  | kept hctx hlog _ => exact ⟨(hnote hlog).stores, (hnote hlog).sent⟩
  | used hctx hlog _ =>
      cases slot with
      | cur => exact ⟨(hnote hlog).stores, (hnote hlog).sent⟩
      | old => exact ⟨(hnote hlog).stores, (hnote hlog).sent⟩

/-- A request of ours is noted. -/
theorem note (h : Backed d) {msgID : UInt32} {raw : Bytes} (hraw : Asked d msgID raw) :
    Backed (d.note raw) := by
  refine (h.log (e := .requested d.s.messageID raw d.s.pending.isNone) ?_).keep rfl fun _ => .inl
  rintro msgID' raw' idle heq
  cases heq
  exact hraw.wasSealed

theorem act (h : Backed d) (hact : Act c env d d') : Backed d' := by
  cases hact with
  | read n => exact ⟨h.stores, h.sent⟩
  | @send raw hraw =>
      refine ⟨h.stores, fun b hb => ?_⟩
      rcases List.mem_cons.mp hb with rfl | hb
      · exact .inr ⟨raw, h.stores raw hraw.stores, rfl⟩
      · exact h.sent b hb
  | encode slot exchange flags msgID inner => exact h.spends (spends_encodeIn ..)
  | encodeEmpty slot exchange flags msgID => exact h.spends (spends_encodeEmptyIn ..)
  | @adopt raw p hraw hid hp hfirst =>
      refine (h.note hraw).keep rfl fun raw' hraw' => ?_
      rcases hraw' with ⟨q, hq, rfl⟩ | hrest
      · cases hq
        rw [hp]
        exact .inr (hraw.wasSealed.mono (List.subset_cons_self _ _))
      · exact .inl (.inr hrest)
  | @retire raw p hraw hid hp hfirst =>
      refine (h.note hraw).keep rfl fun raw' hraw' => ?_
      rcases hraw' with hq | ⟨q, hq, rfl⟩ | hrest
      · exact .inl (.inl hq)
      · cases hq
        rw [hp]
        exact .inr (hraw.wasSealed.mono (List.subset_cons_self _ _))
      · exact .inl (.inr (.inr hrest))
  | part hraw => exact h.note hraw
  | @again p next hp htries =>
      refine (h.log (e := .resent .cur p.msgID p.raw) nofun).keep rfl fun raw hraw => ?_
      rcases hraw with ⟨q, hq, rfl⟩ | hrest
      · cases hq
        exact .inl (.inl ⟨p, hp, rfl⟩)
      · exact .inl (.inr hrest)
  | @againOld p next hp htries =>
      refine (h.log (e := .resent .old p.msgID p.raw) nofun).keep rfl fun raw hraw => ?_
      rcases hraw with hq | ⟨q, hq, rfl⟩ | hrest
      · exact .inl (.inl hq)
      · cases hq
        exact .inl (.inr (.inl ⟨p, hp, rfl⟩))
      · exact .inl (.inr (.inr hrest))
  | drop =>
      refine h.keep rfl fun raw hraw => ?_
      rcases hraw with ⟨q, hq, -⟩ | hrest
      · cases hq
      · exact .inl (.inr hrest)
  | dropOld =>
      refine h.keep rfl fun raw hraw => ?_
      rcases hraw with hq | ⟨q, hq, -⟩ | hrest
      · exact .inl (.inl hq)
      · cases hq
      · exact .inl (.inr (.inr hrest))
  | @hurry p next hp =>
      refine h.keep rfl fun raw hraw => ?_
      rcases hraw with ⟨q, hq, rfl⟩ | hrest
      · cases hq
        exact .inl (.inl ⟨p, hp, rfl⟩)
      · exact .inl (.inr hrest)
  | @record slot raw msgID hraw =>
      obtain ⟨ctx, exchange, flags, msgID', inner, hmem⟩ := hraw
      have hraw : WasSealed (.answered slot msgID raw :: d.log) raw :=
        ⟨_, _, _, _, _, _, List.mem_cons_of_mem _ hmem⟩
      refine (h.log (e := .answered slot msgID raw) nofun).keep (by cases slot <;> rfl)
        fun raw' hraw' => ?_
      rcases hraw' with hq | hq | ⟨slot', hset, hresp⟩ | hq
      · exact .inl (.inl (by cases slot <;> exact hq))
      · exact .inl (.inr (.inl (by cases slot <;> exact hq)))
      · cases slot <;> cases slot'
        · cases hresp
          exact .inr hraw
        · exact .inl (.inr (.inr (.inl ⟨.old, hset, hresp⟩)))
        · exact .inl (.inr (.inr (.inl ⟨.cur, hset, hresp⟩)))
        · cases hresp
          exact .inr hraw
      · exact .inl (.inr (.inr (.inr hq)))
  | cutover role msgID new grace installed =>
      refine (h.log (e := .cutover role msgID new) nofun).keep rfl fun raw hraw => .inl ?_
      -- the response cache of the current SA has become that of the superseded one
      rcases hraw with hq | hq | ⟨slot, hset, hresp⟩ | hq
      · exact .inl hq
      · exact .inr (.inl hq)
      · cases slot with
        | cur => cases hset
        | old => exact .inr (.inr (.inl ⟨.cur, hset, hresp⟩))
      · exact .inr (.inr (.inr hq))
  | expire =>
      refine h.keep rfl fun raw hraw => .inl ?_
      rcases hraw with hq | ⟨q, hq, -⟩ | ⟨slot, hset, hresp⟩ | hq
      · exact .inl hq
      · cases hq
      · cases slot with
        | cur => exact .inr (.inr (.inl ⟨.cur, hset, hresp⟩))
        | old => cases hset
      · exact .inr (.inr (.inr hq))
  | @tune s' hsame =>
      have hpending : s'.pending = d.s.pending := congrArg Core.pending hsame
      have hdelete : s'.oldIKEDelete = d.s.oldIKEDelete := congrArg Core.oldIKEDelete hsame
      have hdedup (slot : Slot) : s'.dedup slot = d.s.dedup slot := by
        cases slot with
        | cur => exact congrArg Core.peer hsame
        | old => exact congrArg Core.oldPeer hsame
      refine h.keep (congrArg Core.nattMode hsame) fun raw hraw => .inl ?_
      simp only [Stores, hpending, hdelete, hdedup] at hraw
      exact hraw
  | @log e he =>
      refine h.log fun msgID raw idle heq => ?_
      subst heq
      cases he

end Backed

end

/-! ## The SAs -/

/-- A message was encoded under an SA with its own SPIs, and an SA that was cut over to is
a new one. -/
def Event.Genuine (c : Crypto) : Event → Prop
  | .sealed _ ctx exchange flags msgID inner raw =>
      ctx.Proper ∧ Seals c ctx exchange flags msgID inner raw
  | .cutover _ _ ctx => ctx.Proper ∧ ctx.sa.skSeq = 0
  | _ => True

structure Machine.Minted (c : Crypto) (m : Machine) : Prop where
  ike : m.ike.Proper
  old : ∀ ctx, m.old = some ctx → ctx.Proper
  log : ∀ e ∈ m.log, e.Genuine c

section

variable {c : Crypto} {r : Rules} {m m' : Machine}

theorem new_of_ikeRekeyResult {enabled : List IkeSuite} {skd : Bytes} {ctx : IkeRekeyCtx}
    {inner : Payloads} {spir : UInt64} {ike : IKESA}
    (h : ikeRekeyResult c enabled skd ctx inner = .ok (spir, ike)) :
    ike.New .initiator ctx.newSPIi spir := by
  unfold ikeRekeyResult at h
  obtain ⟨⟨saP, nr, ker⟩, -, h⟩ := bind_eq_ok.mp h
  dsimp only at h
  split at h
  · cases h
  split at h
  · cases h
  split at h
  · cases h
  obtain ⟨spi, -, h⟩ := bind_eq_ok.mp h
  split at h
  · cases h
  obtain ⟨shared, -, h⟩ := bind_eq_ok.mp h
  obtain ⟨sa, hsa, h⟩ := bind_eq_ok.mp h
  cases h
  exact new_of_deriveRekeyIKE hsa

namespace Machine.Minted

theorem ctx (h : m.Minted c) {slot : Slot} {ctx : IkeCtx} (hctx : m.ctx slot = some ctx.keys) :
    ctx.Proper := by
  rw [← IkeCtx.proper_keys]
  cases slot with
  | cur =>
      rw [← Option.some.inj hctx]
      exact h.ike
  | old => exact h.old _ hctx

/-- The SAs stay. -/
theorem push (h : m.Minted c) {events : List Event} (hike : m'.ike = m.ike)
    (hold : m'.old = m.old) (hlog : m'.log = events ++ m.log)
    (hevents : ∀ e ∈ events, e.Genuine c) : m'.Minted c where
  ike := hike ▸ h.ike
  old ctx hctx := h.old ctx (hold ▸ hctx)
  log e he := by
    rw [hlog, List.mem_append] at he
    exact he.elim (hevents e) (h.log e)

theorem swap (h : m.Minted c) {new : IkeCtx} (hnew : new.Proper) {events : List Event}
    (hevents : ∀ e ∈ events, e.Genuine c) : ((m.swap new).push events).Minted c where
  ike := IkeCtx.proper_keys.mpr hnew
  old ctx hctx := by
    cases hctx
    exact h.ike
  log e he := (List.mem_append.mp he).elim (hevents e) (h.log e)

theorem move (h : m.Minted c) (hmove : Move c r m m') : m'.Minted c := by
  cases hmove with
  | @request kind exchange inner ctx raw hidle hopened hctx hasks hraw =>
      have hproper : ctx.Proper := IkeCtx.proper_keys.mp (hctx ▸ h.ike)
      refine h.push rfl rfl rfl fun e he => ?_
      rcases List.mem_append.mp he with he | he
      · cases kind with
        | childRekey => cases List.mem_singleton.mp he; trivial
        | _ => cases he
      · simp only [List.mem_cons, List.not_mem_nil, or_false] at he
        rcases he with rfl | rfl
        · trivial
        · exact ⟨hproper, hraw⟩
  | @notice ctx raw idle hidle hctx hraw =>
      refine h.push rfl rfl rfl fun e he => ?_
      simp only [List.mem_cons, List.not_mem_nil, or_false] at he
      rcases he with rfl | rfl
      · trivial
      · exact ⟨IkeCtx.proper_keys.mp (hctx ▸ h.ike), hraw⟩
  | @answer x ctx inner raw hreq hctx hinner hraw =>
      refine h.push rfl rfl rfl fun e he => ?_
      simp only [List.mem_cons, List.not_mem_nil, or_false] at he
      rcases he with rfl | rfl
      · trivial
      · exact ⟨h.ctx hctx, hraw⟩
  | @accept x ctx resp u raw hreq hexchange hctx hpending hstale haccept hraw =>
      refine h.push rfl rfl rfl fun e he => ?_
      simp only [List.mem_cons, List.not_mem_nil, or_false] at he
      rcases he with rfl | rfl | rfl
      · trivial
      · trivial
      · exact ⟨h.ctx hctx, hraw⟩
  | @completeIKE x ctx newSPIr newIKE hreply hresult =>
      have hnew := new_of_ikeRekeyResult hresult
      have hmsg : ({ m with msg := none } : Machine).Minted c := ⟨h.ike, h.old, h.log⟩
      refine hmsg.swap (proper_of_new hnew) fun e he => ?_
      cases List.mem_singleton.mp he
      exact ⟨proper_of_new hnew, hnew.skSeq⟩
  | @acceptIKE x ctx new resp raw hreq hslot hexchange hctx hpending haccept hraw =>
      have hnew : new.Proper ∧ new.sa.skSeq = 0 := by
        cases haccept with
        | intro _ _ _ _ _ _ hnew =>
            exact ⟨proper_of_new (new_of_deriveRekeyIKE hnew), (new_of_deriveRekeyIKE hnew).skSeq⟩
      have hrecord : (({ m with busy := false, msg := none } : Machine).record .cur x.msgID
        raw).Minted c := ⟨h.ike, h.old, h.log⟩
      refine hrecord.swap hnew.1 fun e he => ?_
      simp only [List.mem_cons, List.not_mem_nil, or_false] at he
      rcases he with rfl | rfl | rfl
      · exact hnew
      · trivial
      · exact ⟨IkeCtx.proper_keys.mp (hctx ▸ h.ike), hraw⟩
  | expire _ => exact ⟨h.ike, nofun, h.log⟩
  | takeUp | handled | unanswered | dead | resent | childDeleted | complete =>
      refine h.push rfl rfl rfl fun e he => ?_
      cases List.mem_singleton.mp he
      trivial
  | receive | finish | drop | abandon | refused | lower =>
      exact ⟨h.ike, h.old, h.log⟩

end Machine.Minted

end

/-! ## Lives -/

/-- What holds of all that a session has done. -/
structure Life.Sound (c : Crypto) (l : Life) : Prop where
  ike : ∀ ctx, l.ike = some ctx → ctx.Proper
  log : ∀ e ∈ l.log, e.Genuine c
  sent : ∀ b ∈ l.sent, IsSAInit b ∨ ∃ raw, WasSealed l.log raw ∧ b = l.frame raw

section

variable {c : Crypto} {w : World}

theorem Opening.sound {d : Dialing} (h : Opening d) : d.life.Sound c where
  ike ctx hctx := by
    rw [Dialing.life, h.ike] at hctx
    cases hctx
  log e he := by
    rw [Dialing.life, h.log] at he
    cases he
  sent b hb := .inl (h.sent b hb)

theorem Talks.sound {d : Dialing} (h : Talks c d) : d.life.Sound c where
  ike ctx hctx := by
    obtain ⟨sa, hsa, hproper, -⟩ := h.ike
    rw [Dialing.life, hsa] at hctx
    cases hctx
    exact hproper
  log e he := by
    cases h.events e he with
    | intro hctx hraw => exact ⟨hctx, hraw⟩
  sent := h.sent

/-- The first turn finds the session as the handshake has left it. -/
theorem driverStart_run (env : Env) (d : Drive) :
    ∃ s n, (driverStart env d).2 =
        { d with s, reads := n, log := .established { sa := d.s.ikeSA, spii := d.s.initiatorSPI,
                                                       spir := d.s.responderSPI } :: d.log } ∧
      s.core = d.s.core ∧ s.dataPlane = d.s.dataPlane := by
  unfold driverStart
  rw [run_setSession_bind, run_session_bind, run_emit_bind]
  obtain ⟨t₁, d₁, hx₁, -⟩ := jitteredDeadline_ok env _ _ _
  obtain ⟨n₁, hn₁⟩ := Quiet.jitteredDeadline _ _ _
  rw [hx₁] at hn₁
  obtain rfl : d₁ = _ := hn₁
  rw [Proc.bind_of_ok hx₁]
  obtain ⟨t₂, d₂, hx₂, -⟩ := jitteredDeadline_ok env _ _ _
  obtain ⟨n₂, hn₂⟩ := Quiet.jitteredDeadline _ _ _
  rw [hx₂] at hn₂
  obtain rfl : d₂ = _ := hn₂
  rw [Proc.bind_of_ok hx₂]
  exact ⟨_, n₂, rfl, rfl, rfl⟩

/-- The control loop after a handshake.  The session holds what the handshake has left, and
nothing to be sent. -/
structure Begins (c : Crypto) (dl : Dialing) (ike : IKESA) (d : Drive) : Prop where
  talks : Talks c dl
  ikeSA : dl.s.ikeSA = some ike
  core : ∃ childPFS, d.s.core = (dl.s.session ike childPFS).core
  dataPlane : d.s.dataPlane = true
  sent : d.sent = dl.sent
  log : ∃ ctx, d.log = .established ctx :: dl.life.log
  spent : d.spent = List.replicate dl.spent []

theorem begins_driverStart {cfg : Config} {creds : Credentials} {inbox : List Arrival} {dl : Dialing}
    {ike : IKESA} (env : Env) (childPFS : Bool)
    (hdial : dialSession c w { s := .new cfg creds, inbox } = (.ok (), dl))
    (hike : dl.s.ikeSA = some ike) :
    Begins c dl ike (driverStart env (dl.drive ike childPFS)).2 := by
  obtain ⟨s, n, hd, hcore, hdp⟩ := driverStart_run env (dl.drive ike childPFS)
  rw [hd]
  exact ⟨(dialSession_leads cfg creds inbox).of_ok hdial, hike, ⟨childPFS, hcore⟩, hdp, rfl, ⟨_, rfl⟩,
    rfl⟩

namespace Begins

variable {dl : Dialing} {ike : IKESA} {d : Drive}

theorem ctx (h : Begins c dl ike d) :
    d.s.ctx .cur = some { sa := ike, spii := dl.s.initiatorSPI, spir := dl.s.responderSPI } ∧
      IkeCtx.Proper { sa := ike, spii := dl.s.initiatorSPI, spir := dl.s.responderSPI } ∧
      ike.skSeq = UInt64.ofNat dl.spent := by
  obtain ⟨childPFS, hcore⟩ := h.core
  obtain ⟨sa, hsa, hproper, hseq⟩ := h.talks.ike
  cases h.ikeSA.symm.trans hsa
  have hsa : d.s.ikeSA = ike := congrArg Core.ikeSA hcore
  have hspii : d.s.initiatorSPI = dl.s.initiatorSPI := congrArg Core.initiatorSPI hcore
  have hspir : d.s.responderSPI = dl.s.responderSPI := congrArg Core.responderSPI hcore
  refine ⟨?_, hproper, hseq⟩
  rw [Session.ctx, hsa, hspii, hspir]

theorem oldIKE (h : Begins c dl ike d) : d.s.oldIKE = none := by
  obtain ⟨childPFS, hcore⟩ := h.core
  exact congrArg Core.oldIKE hcore

/-- What was logged in the handshake. -/
theorem event (h : Begins c dl ike d) {e : Event} (he : e ∈ d.log) :
    (∃ ctx, e = .established ctx) ∨ Asking c e := by
  obtain ⟨ctx, hlog⟩ := h.log
  rw [hlog] at he
  rcases List.mem_cons.mp he with rfl | he
  · exact .inl ⟨ctx, rfl⟩
  · exact .inr (h.talks.events e he)

theorem backed (h : Begins c dl ike d) : Backed d := by
  obtain ⟨childPFS, hcore⟩ := h.core
  obtain ⟨ctx, hlog⟩ := h.log
  refine ⟨fun raw hraw => ?_, fun b hb => ?_⟩
  · rcases hraw with ⟨p, hp, -⟩ | ⟨p, hp, -⟩ | ⟨slot, hset, -⟩ | ⟨msgID, idle, hmem⟩
    · cases (congrArg Core.pending hcore).symm.trans hp
    · cases (congrArg Core.oldIKEDelete hcore).symm.trans hp
    · have hpeer : d.s.peer = {} := congrArg Core.peer hcore
      have holdPeer : d.s.oldPeer = {} := congrArg Core.oldPeer hcore
      cases slot with
      | cur =>
          rw [Session.dedup, hpeer] at hset
          cases hset
      | old =>
          rw [Session.dedup, holdPeer] at hset
          cases hset
    · rcases h.event hmem with ⟨_, heq⟩ | heq <;> cases heq
  · rw [h.sent] at hb
    refine (h.talks.sent b hb).imp_right fun ⟨raw, hraw, hb'⟩ => ⟨raw, ?_, hb'.trans ?_⟩
    · rw [hlog]
      exact hraw.mono (List.subset_cons_self _ _)
    · have hnatt : d.s.nattMode = dl.s.nattMode := congrArg Core.nattMode hcore
      change (if dl.s.nattMode then _ else _) = if d.s.nattMode then _ else _
      rw [hnatt]

theorem minted (h : Begins c dl ike d) : (d.view {}).Minted c where
  ike := by
    obtain ⟨hctx, hproper, -⟩ := h.ctx
    rw [← Option.some.inj hctx] at hproper
    exact IkeCtx.proper_keys.mpr hproper
  old ctx hctx := by
    rw [Drive.view, h.oldIKE] at hctx
    cases hctx
  log e he := by
    rcases h.event he with ⟨_, rfl⟩ | hasking
    · trivial
    · cases hasking with
      | intro hctx hraw => exact ⟨hctx, hraw⟩

end Begins

theorem Lives.sound {l : Life} (h : Lives c l) : l.Sound c := by
  cases h with
  | dialed w cfg creds inbox =>
      have hend := ((dialSession_leads (c := c) (w := w) cfg creds inbox).mono fun _ _ => .inr).snd
      exact hend.elim Opening.sound Talks.sound
  | @driven w cfg creds inbox dl ike env ts d fin childPFS hdial hike hrun =>
      have hbegins := begins_driverStart env childPFS hdial hike
      have hbacked := hrun.keeps hbegins.backed fun _ _ _ h hact => h.act hact
      obtain ⟨hminted, -⟩ := hrun.invariant (r := anyTurn True) (Machine.Minted c) hbegins.minted
        hbegins.dataPlane (fun _ _ h hmove => h.move hmove) fun _ _ => admitted_anyTurn fun _ => trivial
      refine ⟨fun ctx hctx => ?_, hminted.log, hbacked.sent⟩
      cases hctx
      exact IkeCtx.proper_keys.mp hminted.ike

end

/-! ## An instance -/

/-- The answer of a responder to IKE_SA_INIT. -/
def sampleOffer : Arrival :=
  sampleDial.response 9 [
    .sa { proposals := [{ number := 1, protocol := protocolIKE, spi := [], transforms := [
      { type := transformEncr, id := encrChaCha20Poly1305 },
      { type := transformPRF, id := prfHMACSHA2256 },
      { type := transformDH, id := dhX25519 }] }] },
    .ke { group := dhX25519, data := List.replicate 32 4 },
    .nonce { data := List.replicate 32 7 }]

def sampleCaller (inbox : List Arrival) : Dialing where
  s := .new {} { psk := [1], remoteID := { type := idTypeFQDN, data := [0x61] } }
  inbox

/-- The session after IKE_SA_INIT. -/
def sampleMet : Handshake := (Dial.ikeSAInit .sample sampleWorld (sampleCaller [sampleOffer])).2.s

/-- Our end of its IKE SA. -/
def sampleOwn : IKESA := sampleMet.ikeSA.getD (sampleSA .initiator)

/-- The end of the responder. -/
def sampleOther : IKESA :=
  let sa : IKESA := { sampleOwn with role := .responder }
  { sa with aead := sa.aeadState }

def fromOther (exchange : ExchangeType) (flags : Flags) (msgID : UInt32) (inner : Payloads) : Bytes :=
  valueD (encodeSKWith .sample sampleOther none sampleMet.initiatorSPI 9 exchange flags msgID
    inner).1 []

/-- The answer to IKE_AUTH. -/
def sampleAccept : Arrival :=
  .datagram (wrapIKE (fromOther exchangeIKEAuth flagResponse 1 [
    .idr { idType := idTypeFQDN, data := [0x61] },
    .auth { method := Auth.methodSharedKeyMIC
            data := Auth.sharedSecretAuth (prf .sample) [1] (sampleMet.responderSignedOctets .sample
              sampleOwn { type := idTypeFQDN, data := [0x61] }) },
    .sa { proposals := [{ number := 1, protocol := protocolESP, spi := [0, 0, 0, 9], transforms := [
      { type := transformEncr, id := encrChaCha20Poly1305 },
      { type := transformESN, id := esnNone }] }] }]))

def sampleDialed : Dialing :=
  (dialSession .sample sampleWorld (sampleCaller [sampleOffer, sampleAccept])).2

/-- The session when the control loop starts. -/
def sampleBegun : Drive :=
  (driverStart (sampleEnv 1) (sampleDialed.drive (sampleDialed.s.ikeSA.getD (sampleSA .initiator))
    false)).2

/-- A probe of the peer is answered, and later one of ours is sent and repeated. -/
def sampleProbing : Drive :=
  ticking 102000000001 (ticking 100000000000
    (receiving 2 (fromOther exchangeInformational 0 0 []) sampleBegun))

/-- The peer replaces the IKE SA, and under the new one there is another probe. -/
def sampleRenewed : Drive :=
  ticking 200000000000 (receiving 103000000000 (fromOther exchangeCreateChildSA 0 1 sampleIKERekey)
    sampleProbing)

theorem lives_sampleRenewed : Lives .sample sampleRenewed.life := by
  -- one evaluation for all, since each of them runs the handshake
  have hsample : ((dialSession .sample sampleWorld (sampleCaller [sampleOffer, sampleAccept])).1 = .ok () ∧
      sampleDialed.s.ikeSA = some (sampleDialed.s.ikeSA.getD (sampleSA .initiator))) ∧
      goesOn [(2, .datagram (fromOther exchangeInformational 0 0 [])), (100000000000, .tick),
        (102000000001, .tick),
        (103000000000, .datagram (fromOther exchangeCreateChildSA 0 1 sampleIKERekey)),
        (200000000000, .tick)] sampleBegun = true := by decide +kernel
  simp only [goesOn_cons] at hsample
  obtain ⟨⟨hdial, hike⟩, hasked, hprobe, hagain, hrekey, hlast, -⟩ := hsample
  have hdialed : dialSession .sample sampleWorld (sampleCaller [sampleOffer, sampleAccept]) =
      (.ok (), sampleDialed) := Proc.eq_ok_of_fst hdial
  exact .driven false hdialed hike
    (((((Reaches.refl.receiving hasked).ticking hprobe).ticking hagain).receiving hrekey).ticking hlast)

end GoIpsec.Session
