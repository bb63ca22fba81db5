import GoIpsec.Session.Pair

/-!
# Two endpoints: what one knows of the other

The envelope is taken to be ideal: a message that an endpoint can decode under an IKE SA is
one that the other endpoint has encoded under that IKE SA.  Messages may be lost, repeated,
held back and overtaken.

An endpoint then knows something of the other by what it was told.  A response to its
request says that the other end has accepted it, with what the response contains.  So what
an endpoint completes has its counterpart at the other end: the two halves of one Child SA,
or the two ends of one IKE SA, made in the same exchange.

The invariant is about one endpoint and the log of the other, and it is kept by the moves
of either.
-/

set_option linter.dupNamespace false

namespace GoIpsec.Session

open Golang Ikemsg Ikesa

theorem IkeCtx.Mirrors.symm {x y : IkeCtx} (h : x.Mirrors y) : y.Mirrors x :=
  ⟨h.sa.symm, h.spii.symm, h.spir.symm⟩

theorem IkeCtx.Mirrors.keys {x y : IkeCtx} (h : x.Mirrors y) : x.keys.Mirrors y.keys :=
  ⟨h.sa.withSeq 0 0, h.spii, h.spir⟩

section

variable (c : Crypto)

/-- Why a response was given, if `P` is the log of the other end: it changes nothing, or it
accepts what the other end asked for in the exchange. -/
inductive Grounded (P log : List Event) (g : Lineage) (y : Speech) : Prop
  | declined (h : Declines y.exchange y.inner)
  | child {req : Speech} {m : Machine} {ctx : IkeCtx} {u : ChildSAUpdate}
      (hsaid : (g.mirror, req) ∈ askings P) (hid : req.msgID = y.msgID)
      (hctx : (g, ctx.keys) ∈ ikeSAs log) (hinstall : ((g, y.msgID), u) ∈ installs .responder log)
      (haccept : AcceptsChild c m ctx.sa req.inner y.inner u)
  | ike {req : Speech} {m : Machine} {new : IkeCtx}
      (hsaid : (g.mirror, req) ∈ askings P) (hid : req.msgID = y.msgID)
      (hctx : (g, m.ike) ∈ ikeSAs log)
      (hcutover : ((g, y.msgID), new.keys) ∈ cutovers .responder log)
      (haccept : AcceptsIKE c m req.inner y.inner new)

/-- What an endpoint knows of the other, whose log is `P`. -/
structure Machine.Knows (P : List Event) (m : Machine) : Prop where
  cur : (lineage m.log, m.ike) ∈ ikeSAs m.log
  old : ∀ ctx, m.old = some ctx → ((lineage m.log).tail, ctx) ∈ ikeSAs m.log
  msg : ∀ x, m.msg = some x → (((lineage m.log).at x.slot).mirror, x.speech) ∈ speeches P
  pending : ∀ msgID kind, m.pending = some (msgID, kind) → ∃ (y : Speech) (m₀ : Machine),
    (lineage m.log, y) ∈ askings m.log ∧ y.msgID = msgID ∧ Asks c m₀ kind y.exchange y.inner
  responses : ∀ g y, (g, y) ∈ speeches m.log → y.flags.isResponse = true → Grounded c P m.log g y
  installed : ∀ g msgID u, ((g, msgID), u) ∈ installs .initiator m.log →
    ∃ v, ((g.mirror, msgID), v) ∈ installs .responder P ∧ u.Complements v
  cutover : ∀ g msgID x, ((g, msgID), x) ∈ cutovers .initiator m.log →
    ∃ y, ((g.mirror, msgID), y) ∈ cutovers .responder P ∧ x.Mirrors y

end

/-- Where both endpoints have an IKE SA, they have its two ends. -/
def SharedSAs (log P : List Event) : Prop :=
  ∀ g x y, (g, x) ∈ ikeSAs log → (g.mirror, y) ∈ ikeSAs P → x.Mirrors y

/-- An endpoint is where the other is, or has accepted one IKE SA more. -/
def AtOrAhead (g l : Lineage) : Prop := l = g ∨ ∃ msgID, l = (.responder, msgID) :: g

/-- Neither endpoint is more than one IKE SA ahead of the other. -/
def Abreast (l l' : Lineage) : Prop := ∃ g : Lineage, AtOrAhead g l ∧ AtOrAhead g.mirror l'

/-- The rules of a run in which the other endpoint is the only one to send messages. -/
def heardFrom (P : List Event) : Rules where
  recv m x := m.Usable x.slot ∧ (((lineage m.log).at x.slot).mirror, x.speech) ∈ speeches P
  lost := True
  stale := True
  closing := True

theorem SharedSAs.symm {log P : List Event} (h : SharedSAs log P) : SharedSAs P log := by
  intro g x y hx hy
  refine (h g.mirror y x hy ?_).symm
  rwa [Lineage.mirror_mirror]

theorem Abreast.symm {l l' : Lineage} (h : Abreast l l') : Abreast l' l := by
  obtain ⟨g, hg, hg'⟩ := h
  refine ⟨g.mirror, hg', ?_⟩
  rwa [Lineage.mirror_mirror]

section

variable {c : Crypto} {m m' n : Machine} {P P' log log' : List Event} {g : Lineage} {y : Speech}

theorem askings_suffix (h : log <:+ log') : askings log ⊆ askings log' := by
  rintro ⟨g, y⟩ hy
  obtain ⟨hy, hreq⟩ := mem_askings.mp hy
  exact mem_askings.mpr ⟨speeches_suffix h hy, hreq⟩

theorem Grounded.mono (h : Grounded c P log g y) (hP : P <:+ P') (hlog : log <:+ log') :
    Grounded c P' log' g y := by
  cases h with
  | declined h => exact .declined h
  | child hsaid hid hctx hinstall haccept =>
      exact .child (askings_suffix hP hsaid) hid (ikeSAs_suffix hlog hctx)
        (installs_suffix _ hlog hinstall) haccept
  | ike hsaid hid hctx hcutover haccept =>
      exact .ike (askings_suffix hP hsaid) hid (ikeSAs_suffix hlog hctx)
        (cutovers_suffix _ hlog hcutover) haccept

/-- What the other endpoint does later takes nothing back. -/
theorem Machine.Knows.mono (h : m.Knows c P) (hP : P <:+ P') : m.Knows c P' where
  cur := h.cur
  old := h.old
  msg x hx := speeches_suffix hP (h.msg x hx)
  pending := h.pending
  responses g y hy hresp := (h.responses g y hy hresp).mono hP List.suffix_rfl
  installed g msgID u hu := by
    obtain ⟨v, hv, huv⟩ := h.installed g msgID u hu
    exact ⟨v, installs_suffix _ hP hv, huv⟩
  cutover g msgID x hx := by
    obtain ⟨y, hy, hxy⟩ := h.cutover g msgID x hx
    exact ⟨y, cutovers_suffix _ hP hy, hxy⟩

/-- The IKE SA of a slot. -/
theorem Machine.Knows.ctx (h : m.Knows c P) {slot : Slot} {ctx : IkeCtx} (hctx : m.ctx slot = some ctx) :
    ((lineage m.log).at slot, ctx) ∈ ikeSAs m.log := by
  cases slot with
  | cur =>
      cases hctx
      exact h.cur
  | old => exact h.old ctx hctx

/-- Steps that complete nothing and change no IKE SA. -/
theorem Machine.Knows.step (h : m.Knows c P) (hlog : m.log <:+ m'.log)
    (hlineage : lineage m'.log = lineage m.log) (hike : m'.ike = m.ike)
    (hold : ∀ ctx, m'.old = some ctx → m.old = some ctx)
    (hmsg : ∀ x, m'.msg = some x → m.msg = some x ∨
      (((lineage m.log).at x.slot).mirror, x.speech) ∈ speeches P)
    (hpending : ∀ msgID kind, m'.pending = some (msgID, kind) → m.pending = some (msgID, kind) ∨
      ∃ (y : Speech) (m₀ : Machine), (lineage m.log, y) ∈ askings m'.log ∧ y.msgID = msgID ∧
        Asks c m₀ kind y.exchange y.inner)
    (hresponses : ∀ g y, (g, y) ∈ speeches m'.log → y.flags.isResponse = true →
      (g, y) ∈ speeches m.log ∨ Grounded c P m'.log g y)
    (hinstalls : installs .initiator m'.log = installs .initiator m.log)
    (hcutovers : cutovers .initiator m'.log = cutovers .initiator m.log) : m'.Knows c P := by
  refine ⟨?_, fun ctx hctx => ?_, fun x hx => ?_, fun msgID kind hp => ?_, fun g y hy hresp => ?_, ?_, ?_⟩
  · rw [hlineage, hike]
    exact ikeSAs_suffix hlog h.cur
  · rw [hlineage]
    exact ikeSAs_suffix hlog (h.old ctx (hold ctx hctx))
  · rw [hlineage]
    exact (hmsg x hx).elim (h.msg x) id
  · rw [hlineage]
    rcases hpending msgID kind hp with hp | hnew
    · obtain ⟨y, m₀, hy, hid, hasks⟩ := h.pending msgID kind hp
      exact ⟨y, m₀, askings_suffix hlog hy, hid, hasks⟩
    · exact hnew
  · rcases hresponses g y hy hresp with hy | hnew
    · exact (h.responses g y hy hresp).mono List.suffix_rfl hlog
    · exact hnew
  · rw [hinstalls]
    exact h.installed
  · rw [hcutovers]
    exact h.cutover

/-- Steps that say nothing, and start no exchange. -/
theorem Machine.Knows.silent (h : m.Knows c P) (hlog : m.log <:+ m'.log)
    (hlineage : lineage m'.log = lineage m.log) (hike : m'.ike = m.ike)
    (hold : ∀ ctx, m'.old = some ctx → m.old = some ctx) (hmsg : ∀ x, m'.msg = some x → m.msg = some x)
    (hpending : ∀ p, m'.pending = some p → m.pending = some p)
    (hspeeches : speeches m'.log = speeches m.log)
    (hinstalls : installs .initiator m'.log = installs .initiator m.log)
    (hcutovers : cutovers .initiator m'.log = cutovers .initiator m.log) : m'.Knows c P :=
  h.step hlog hlineage hike hold (fun x hx => .inl (hmsg x hx)) (fun _ _ hp => .inl (hpending _ hp))
    (fun _ _ hy _ => .inl (hspeeches ▸ hy)) hinstalls hcutovers

/-- A request is made. -/
theorem Machine.Knows.ask (h : m.Knows c P) (hlog : m.log <:+ m'.log)
    (hlineage : lineage m'.log = lineage m.log) (hike : m'.ike = m.ike) (hold : m'.old = m.old)
    (hmsg : m'.msg = m.msg) (hreq : y.flags.isResponse = false)
    (hspeeches : speeches m'.log = (lineage m.log, y) :: speeches m.log)
    (hpending : ∀ msgID kind, m'.pending = some (msgID, kind) → m.pending = some (msgID, kind) ∨
      y.msgID = msgID ∧ Asks c m kind y.exchange y.inner)
    (hinstalls : installs .initiator m'.log = installs .initiator m.log)
    (hcutovers : cutovers .initiator m'.log = cutovers .initiator m.log) : m'.Knows c P := by
  refine h.step hlog hlineage hike (fun _ => hold ▸ id) (fun _ hx => .inl (hmsg ▸ hx))
    (fun msgID kind hp => (hpending msgID kind hp).imp_right fun hnew => ?_) (fun g z hz hresp => ?_)
    hinstalls hcutovers
  · exact ⟨y, m, mem_askings.mpr ⟨hspeeches ▸ List.mem_cons_self, hreq⟩, hnew⟩
  · rw [hspeeches] at hz
    rcases List.mem_cons.mp hz with heq | hz
    · cases heq
      cases hreq.symm.trans hresp
    · exact .inl hz

/-- A response is given, for a reason. -/
theorem Machine.Knows.respond (h : m.Knows c P) (hlog : m.log <:+ m'.log)
    (hlineage : lineage m'.log = lineage m.log) (hike : m'.ike = m.ike) (hold : m'.old = m.old)
    (hmsg : m'.msg = m.msg) (hpending : m'.pending = m.pending)
    (hspeeches : speeches m'.log = (g, y) :: speeches m.log) (hground : Grounded c P m'.log g y)
    (hinstalls : installs .initiator m'.log = installs .initiator m.log)
    (hcutovers : cutovers .initiator m'.log = cutovers .initiator m.log) : m'.Knows c P := by
  refine h.step hlog hlineage hike (fun _ => hold ▸ id) (fun _ hx => .inl (hmsg ▸ hx))
    (fun _ _ hp => .inl (hpending ▸ hp)) (fun g z hz hresp => ?_) hinstalls hcutovers
  rw [hspeeches] at hz
  rcases List.mem_cons.mp hz with heq | hz
  · cases heq
    exact .inr hground
  · exact .inl hz

/-- Another IKE SA becomes the current one. -/
theorem Machine.Knows.swap (h : m.Knows c P) {q : Role × UInt32} (hlog : m.log <:+ m'.log)
    (hlineage : lineage m'.log = q :: lineage m.log) (hike : (q :: lineage m.log, m'.ike) ∈ ikeSAs m'.log)
    (hold : m'.old = some m.ike) (hmsg : m'.msg = none) (hpending : m'.pending = none)
    (hresponses : ∀ g y, (g, y) ∈ speeches m'.log → y.flags.isResponse = true →
      (g, y) ∈ speeches m.log ∨ Grounded c P m'.log g y)
    (hinstalls : installs .initiator m'.log = installs .initiator m.log)
    (hcutovers : ∀ g msgID x, ((g, msgID), x) ∈ cutovers .initiator m'.log →
      ((g, msgID), x) ∈ cutovers .initiator m.log ∨
        ∃ y, ((g.mirror, msgID), y) ∈ cutovers .responder P ∧ x.Mirrors y) : m'.Knows c P := by
  refine ⟨?_, fun ctx hctx => ?_, fun x hx => ?_, fun msgID kind hp => ?_, fun g y hy hresp => ?_, ?_,
    fun g msgID x hx => (hcutovers g msgID x hx).elim (h.cutover g msgID x) id⟩
  · rw [hlineage]
    exact hike
  · cases hold.symm.trans hctx
    rw [hlineage]
    exact ikeSAs_suffix hlog h.cur
  · cases hmsg.symm.trans hx
  · cases hpending.symm.trans hp
  · rcases hresponses g y hy hresp with hy | hnew
    · exact (h.responses g y hy hresp).mono List.suffix_rfl hlog
    · exact hnew
  · rw [hinstalls]
    exact h.installed

/-! ## The two endpoints together -/

/-- What holds of the two endpoints together. -/
structure Paired (c : Crypto) (m n : Machine) : Prop where
  left : m.Knows c n.log
  right : n.Knows c m.log
  shared : SharedSAs m.log n.log
  abreast : Abreast (lineage m.log) (lineage n.log)

theorem Paired.symm (h : Paired c m n) : Paired c n m :=
  ⟨h.right, h.left, h.shared.symm, h.abreast.symm⟩

/-- A response to a rekey of ours was given for what we asked. -/
theorem Paired.asked (h : Paired c m n) {first : UInt32} (horderly : m.Orderly first)
    (hfew : FewRequests m.log) {x : Msg} {kind : ExchangeKind} (hreply : m.Replies x kind)
    (hk : kind.isRekey = true) :
    Grounded c m.log n.log (lineage m.log).mirror x.speech ∧
      ∃ m₀ : Machine, ∀ req, ((lineage m.log).mirror.mirror, req) ∈ askings m.log →
        req.msgID = x.msgID → Asks c m₀ kind exchangeCreateChildSA req.inner := by
  have hsaid := h.left.msg x hreply.msg
  rw [hreply.slot] at hsaid
  refine ⟨h.right.responses _ _ hsaid hreply.response, ?_⟩
  obtain ⟨y, m₀, hy, hid, hasks⟩ := h.left.pending _ _ hreply.pending
  refine ⟨m₀, fun req hreq hreqid => ?_⟩
  rw [Lineage.mirror_mirror] at hreq
  obtain rfl : req = y :=
    askings_inj horderly.noted horderly.counts.ids hfew hreq hy (hreqid.trans hid.symm)
  exact hasks.exchange_eq hk ▸ hasks

/-- What an endpoint completes as a Child SA, the other has accepted. -/
theorem Paired.complete (h : Paired c m n) {first : UInt32} (horderly : m.Orderly first)
    (hfew : FewRequests m.log) {x : Msg} {ctx : ChildRekeyCtx} {respSPI : UInt32} {suite : EspSuite}
    {keys : ChildKeys} (hreply : m.Replies x (.childRekey ctx))
    (hresult : childRekeyResult c m.espSuites m.ike.sa ctx x.inner = .ok (respSPI, suite, keys)) :
    ∃ v, (((lineage m.log).mirror, x.msgID), v) ∈ installs .responder n.log ∧
      ChildSAUpdate.Complements
        { newInSPI := ctx.newInSPI, newOutSPI := respSPI, oldInSPI := ctx.oldInSPI,
          suite := suite.id, outEncr := keys.encrIR, outInteg := keys.integIR,
          inEncr := keys.encrRI, inInteg := keys.integRI } v := by
  obtain ⟨hground, m₀, hasked⟩ := h.asked horderly hfew hreply rfl
  cases hground with
  | declined hdecl => exact (hdecl.no_child hresult).elim
  | @child req m₁ ctx' u hsaid hid hctx hinstall haccept =>
      have hskd : m.ike.sa.skd = ctx'.sa.skd := (h.shared _ _ _ h.left.cur hctx).sa.skd
      exact ⟨u, hinstall, haccept.complements hskd (hasked req hsaid hid)
        (fun s hs => mem_of_mem_enabledSuites hs) hresult⟩
  | @ike req m₁ new hsaid hid hctx hcutover haccept =>
      exact ((hasked req hsaid hid).child_not_ike haccept).elim

/-- What an endpoint completes as an IKE SA, the other has accepted. -/
theorem Paired.completeIKE (h : Paired c m n) {first : UInt32} (horderly : m.Orderly first)
    (hfew : FewRequests m.log) {x : Msg} {ctx : IkeRekeyCtx} {newSPIr : UInt64} {newIKE : IKESA}
    (hreply : m.Replies x (.ikeRekey ctx))
    (hresult : ikeRekeyResult c m.ikeSuites m.ike.sa.skd ctx x.inner = .ok (newSPIr, newIKE)) :
    ∃ y, (((lineage m.log).mirror, x.msgID), y) ∈ cutovers .responder n.log ∧
      (IkeCtx.keys { sa := newIKE, spii := ctx.newSPIi, spir := newSPIr }).Mirrors y := by
  obtain ⟨hground, m₀, hasked⟩ := h.asked horderly hfew hreply rfl
  cases hground with
  | declined hdecl => exact (hdecl.no_ike hresult).elim
  | @child req m₁ ctx' u hsaid hid hctx hinstall haccept =>
      exact ((hasked req hsaid hid).ike_not_child haccept).elim
  | @ike req m₁ new hsaid hid hctx hcutover haccept =>
      have hskd : m.ike.sa.skd = m₁.ike.sa.skd := (h.shared _ _ _ h.left.cur hctx).sa.skd
      have hmirrors := haccept.mirrors hskd (hasked req hsaid hid)
        (fun s hs => mem_of_mem_enabledSuites hs) hresult
      exact ⟨new.keys, hcutover, hmirrors.keys⟩

/-! ## IKE SAs -/

/-- An IKE SA of ours that the other endpoint has not gets its counterpart, or none. -/
theorem SharedSAs.cons {log P : List Event} (h : SharedSAs log P) {role : Role} {msgID : UInt32}
    {new : IkeCtx}
    (hnew : ∀ y, ((role.other, msgID) :: (lineage log).mirror, y) ∈ ikeSAs P → new.keys.Mirrors y) :
    SharedSAs (.cutover role msgID new :: log) P := by
  intro g x y hx hy
  rcases List.mem_cons.mp hx with heq | hx
  · cases heq
    exact hnew y hy
  · exact h g x y hx hy

theorem AtOrAhead.length_le {g l : Lineage} (h : AtOrAhead g l) :
    g.length ≤ l.length ∧ l.length ≤ g.length + 1 := by
  obtain rfl | ⟨msgID, rfl⟩ := h
  · exact ⟨Nat.le_refl _, Nat.le_succ _⟩
  · exact ⟨Nat.le_succ _, Nat.le_refl _⟩

/-- The endpoint that completes an IKE SA gets abreast of the other. -/
theorem Abreast.complete {l l' : Lineage} (h : Abreast l l') {msgID : UInt32}
    (haccepted : (.responder, msgID) :: l.mirror <:+ l') : Abreast ((.initiator, msgID) :: l) l' := by
  obtain ⟨g, hg, hg'⟩ := h
  have hlen := haccepted.length_le
  have hle := hg.length_le.1
  have hle' := hg'.length_le.2
  simp only [List.length_cons, Lineage.length_mirror] at hlen hle'
  have heq : (.responder, msgID) :: l.mirror = l' :=
    haccepted.eq_of_length (by simp only [List.length_cons, Lineage.length_mirror]; omega)
  exact ⟨(.initiator, msgID) :: l, .inl rfl, .inl heq.symm⟩

/-- The endpoint that accepts an IKE SA was not ahead. -/
theorem Abreast.accept {l l' : Lineage} (h : Abreast l l') {msgID : UInt32}
    (hasked : l.mirror <:+ l') : Abreast ((.responder, msgID) :: l) l' := by
  obtain ⟨g, rfl | ⟨id, rfl⟩, hg'⟩ := h
  · exact ⟨l, .inr ⟨msgID, rfl⟩, hg'⟩
  · have hlen := hasked.length_le
    have hle' := hg'.length_le.2
    simp only [Lineage.mirror_cons, List.length_cons, Lineage.length_mirror] at hlen hle'
    have heq := hasked.eq_of_length
      (by simp only [Lineage.mirror_cons, List.length_cons, Lineage.length_mirror]; omega)
    subst heq
    obtain hsame | ⟨id', hahead⟩ := hg'
    · exact (List.cons_ne_self _ _ hsame).elim
    · cases hahead

/-! ## Moves -/

/-- A step that makes no IKE SA. -/
theorem Paired.stay (h : Paired c m n) (hlog : m.log <:+ m'.log) (hleft : m'.Knows c n.log)
    (hlineage : lineage m'.log = lineage m.log) (hikeSAs : ikeSAs m'.log = ikeSAs m.log) :
    Paired c m' n := by
  refine ⟨hleft, h.right.mono hlog, ?_, ?_⟩
  · intro g x y hx
    rw [hikeSAs] at hx
    exact h.shared g x y hx
  · rw [hlineage]
    exact h.abreast

theorem Paired.move (h : Paired c m n) {first first' : UInt32} (horderly : m.Orderly first)
    (hpeer : n.Orderly first') (hfew : FewRequests m.log) (hmove : Move c (heardFrom n.log) m m') :
    Paired c m' n := by
  have hknows := h.left
  have hgrows := hmove.log_suffix
  cases hmove with
  | receive x hx hopened =>
      refine h.stay hgrows ?_ rfl rfl
      refine hknows.step hgrows rfl rfl (fun _ => id) (fun y hy => ?_) (fun _ _ => .inl)
        (fun _ _ hy _ => .inl hy) rfl rfl
      cases hy
      exact .inr hx.2
  | finish hopened => 
      exact h.stay hgrows (hknows.silent hgrows rfl rfl (fun _ => id) nofun (fun _ => id) rfl rfl rfl) rfl rfl
  | drop | abandon | refused =>
      exact h.stay hgrows (hknows.silent hgrows rfl rfl (fun _ => id) (fun _ => id) nofun rfl rfl rfl) rfl rfl
  | expire =>
      exact h.stay hgrows (hknows.silent hgrows rfl rfl nofun (fun _ => id) (fun _ => id) rfl rfl rfl) rfl rfl
  | @request kind exchange inner ctx raw hidle hopened hctx hasks =>
      have hpending (msgID : UInt32) (kind' : ExchangeKind)
          (hp : some (m.messageID, kind) = some (msgID, kind')) :
          m.messageID = msgID ∧ Asks c m kind' exchange inner := by
        cases hp
        exact ⟨rfl, hasks⟩
      cases kind <;>
        exact h.stay hgrows (hknows.ask hgrows rfl rfl rfl rfl (isResponse_ikeRoleBit _) rfl
          (fun msgID kind' hp => .inr (hpending msgID kind' hp)) rfl rfl) rfl rfl
  | notice =>
      exact h.stay hgrows (hknows.ask hgrows rfl rfl rfl rfl (isResponse_ikeRoleBit _) rfl
        (fun _ _ => .inl) rfl rfl) rfl rfl
  | answer hreq hctx hinner =>
      exact h.stay hgrows (hknows.respond hgrows rfl rfl rfl rfl rfl rfl (.declined hinner) rfl rfl) rfl rfl
  | @accept x ctx resp u raw hreq hexchange hctx hpending hstale haccept =>
      have hsaid := mem_askings.mpr ⟨hknows.msg x hreq.msg, hreq.request⟩
      exact h.stay hgrows (hknows.respond hgrows rfl rfl rfl rfl rfl rfl
        (.child hsaid rfl (hknows.ctx hctx) List.mem_cons_self haccept) rfl rfl) rfl rfl
  | @complete x ctx respSPI suite keys hreply hresult =>
      refine h.stay hgrows ⟨hknows.cur, hknows.old, hknows.msg, nofun, ?_, ?_, hknows.cutover⟩ rfl rfl
      · exact fun g y hy hresp => (hknows.responses g y hy hresp).mono List.suffix_rfl hgrows
      · intro g msgID u hu
        rcases List.mem_cons.mp hu with heq | hu
        · cases heq
          exact h.complete horderly hfew hreply hresult
        · exact hknows.installed g msgID u hu
  | @completeIKE x ctx newSPIr newIKE hreply hresult =>
      obtain ⟨y, hy, hmirrors⟩ := h.completeIKE horderly hfew hreply hresult
      have hy' := mem_cutovers_iff.mp hy
      refine ⟨?_, h.right.mono hgrows, h.shared.cons fun z hz => ?_, ?_⟩
      · refine hknows.swap hgrows rfl List.mem_cons_self rfl rfl rfl (fun _ _ hy _ => .inl hy) rfl ?_
        intro g msgID z hz
        rcases List.mem_cons.mp hz with heq | hz
        · cases heq
          exact .inr ⟨y, hy, hmirrors⟩
        · exact .inl hz
      · exact hpeer.pedigree.eq hy' hz ▸ hmirrors
      · exact h.abreast.complete (hpeer.pedigree.behind _ _ hy')
  | @acceptIKE x ctx new resp raw hreq hslot hexchange hctx hpending haccept =>
      have hsaid := hknows.msg x hreq.msg
      rw [hslot] at hsaid
      have hasked := mem_askings.mpr ⟨hsaid, hreq.request⟩
      refine ⟨?_, h.right.mono hgrows, ?_, ?_⟩
      · refine hknows.swap hgrows rfl List.mem_cons_self rfl rfl rfl (fun g y hy hresp => ?_) rfl
          (fun _ _ _ => .inl)
        rcases List.mem_cons.mp hy with heq | hy
        · cases heq
          exact .inr (.ike hasked rfl (ikeSAs_suffix hgrows hknows.cur) List.mem_cons_self haccept)
        · exact .inl hy
      · have hbefore : SharedSAs (.answered .cur x.msgID raw :: .sealed .cur ctx exchangeCreateChildSA
            (answerFlags ctx) x.msgID resp raw :: m.log) n.log := h.shared
        refine hbefore.cons fun y hy => ?_
        -- the other endpoint completes what we have accepted, and not before
        obtain ⟨z, hz, -⟩ := h.right.cutover _ _ _ (mem_cutovers_iff.mpr hy)
        have hz' := mem_cutovers_iff.mp hz
        rw [Lineage.mirror_mirror] at hz'
        exact (horderly.pedigree.not_beyond _ z hz').elim
      · exact h.abreast.accept (suffix_of_mem_speeches hsaid)
  | takeUp | handled | unanswered | dead | resent | childDeleted | lower =>
      exact h.stay hgrows (hknows.silent hgrows rfl rfl (fun _ => id) (fun _ => id) (fun _ => id) rfl rfl rfl)
        rfl rfl

end

end GoIpsec.Session
