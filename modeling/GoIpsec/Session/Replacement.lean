import GoIpsec.Session.History

/-!
# Replacing a Child SA the peer has deleted

When the peer deletes the live Child SA, the control loop owes it a new one.  The debt
is a flag or an outstanding exchange, and it moves between the two: an exchange is
started and lowers the flag, it is given up and raises it again.

Two paths lose track of it.  A response that cannot be used ends the exchange without
raising the flag.  A Child SA of the peer is installed without lowering it.  What holds
otherwise is proved for the runs in which neither happens.
-/

set_option linter.dupNamespace false

namespace GoIpsec.Session

open Golang Ikemsg Ikesa

/-- The Child SA the peer has deleted, if none was installed since. -/
def deletedChild : List Event → Option ChildSA
  | [] => none
  | .childDeleted child :: _ => some child
  | .install _ _ _ _ :: _ => none
  | _ :: log => deletedChild log

def childGone (log : List Event) : Bool := (deletedChild log).isSome

section

variable {c : Crypto} {r : Rules} {m m' : Machine}

/-- A Child SA exchange of ours is outstanding. -/
def Machine.Replacing (m : Machine) (ctx : ChildRekeyCtx) : Prop :=
  ∃ msgID, m.pending = some (msgID, .childRekey ctx)

theorem Machine.Replacing.unique {msgID : UInt32} {kind : ExchangeKind} {ctx : ChildRekeyCtx}
    (h : m.Replacing ctx) (hp : m.pending = some (msgID, kind)) : kind = .childRekey ctx := by
  obtain ⟨id, hid⟩ := h
  rw [hp] at hid
  exact (Prod.mk.inj (Option.some.inj hid)).2

theorem Machine.not_replacing_of_rekeying (h : m.rekeying = false) (ctx : ChildRekeyCtx) :
    ¬ m.Replacing ctx := by
  rintro ⟨msgID, hp⟩
  simp [Machine.rekeying, hp, ExchangeKind.isRekey] at h

/-! ## Nothing is owed in silence -/

/-- An outstanding exchange replaces the live Child SA, and if that is gone, the debt
is with the flag or with the exchange.  An exchange that was started to rekey a live
Child SA does not take the debt over. -/
structure Machine.Owes (m : Machine) : Prop where
  target : ∀ ctx, m.Replacing ctx → ∃ child, m.child = some child ∧ child.initiatorSPI = ctx.oldInSPI
  debt : childGone m.log = true → m.reestablish = true ∨ ∃ ctx, m.Replacing ctx
  rekey : childGone m.log = true → ∀ ctx, m.Replacing ctx → ctx.reestablish = false →
    m.reestablish = true

theorem Machine.Fresh.owes (h : m.Fresh) : m.Owes := by
  obtain ⟨ctx, hlog, -⟩ := h.log
  have hnone (ctx : ChildRekeyCtx) : ¬ m.Replacing ctx := by
    rintro ⟨msgID, hp⟩
    rw [h.pending] at hp
    cases hp
  refine ⟨fun ctx hctx => (hnone ctx hctx).elim, fun hgone => ?_, fun _ ctx hctx => (hnone ctx hctx).elim⟩
  rw [hlog] at hgone
  cases hgone

/-- Steps that leave the exchange, the Child SA and the debt as they are. -/
theorem Machine.Owes.congr (h : m.Owes) (hp : m'.pending = m.pending) (hc : m'.child = m.child)
    (hf : m'.reestablish = m.reestablish) (hlog : childGone m'.log = childGone m.log) : m'.Owes := by
  have hrep (ctx : ChildRekeyCtx) : m'.Replacing ctx ↔ m.Replacing ctx := by
    unfold Machine.Replacing
    rw [hp]
  refine ⟨fun ctx hctx => ?_, fun hgone => ?_, fun hgone ctx hctx hfresh => ?_⟩
  · rw [hc]
    exact h.target ctx ((hrep ctx).mp hctx)
  · rw [hf]
    rcases h.debt (hlog ▸ hgone) with hflag | ⟨ctx, hctx⟩
    · exact .inl hflag
    · exact .inr ⟨ctx, (hrep ctx).mpr hctx⟩
  · rw [hf]
    exact h.rekey (hlog ▸ hgone) ctx ((hrep ctx).mp hctx) hfresh

/-- Steps after which no Child SA exchange is outstanding. -/
theorem Machine.Owes.of_idle (hidle : ∀ ctx, ¬ m'.Replacing ctx)
    (hdebt : childGone m'.log = true → m'.reestablish = true) : m'.Owes :=
  ⟨fun ctx hctx => (hidle ctx hctx).elim, fun hgone => .inl (hdebt hgone),
    fun _ ctx hctx => (hidle ctx hctx).elim⟩

theorem Machine.not_replacing_none (h : m.pending = none) (ctx : ChildRekeyCtx) :
    ¬ m.Replacing ctx := by
  rintro ⟨msgID, hp⟩
  rw [h] at hp
  cases hp

/-- Without a Child SA exchange, the debt is with the flag. -/
theorem Machine.Owes.flag (h : m.Owes) (hidle : ∀ ctx, ¬ m.Replacing ctx)
    (hgone : childGone m.log = true) : m.reestablish = true := by
  rcases h.debt hgone with hflag | ⟨ctx, hctx⟩
  · exact hflag
  · exact (hidle ctx hctx).elim

theorem Machine.Owes.move (hlost : ¬ r.lost) (h : m.Owes) (hmove : Move c r m m') : m'.Owes := by
  cases hmove with
  | receive | finish | takeUp | handled | unanswered | dead | notice | resent | expire =>
      exact h.congr rfl rfl rfl rfl
  | answer => exact h.congr rfl rfl rfl rfl
  | @request kind exchange inner ctx raw hidle _ hctx hasks hraw =>
      have hlog : childGone ((startEvents kind ++ [Event.requested m.messageID raw true,
          .sealed .cur ctx exchange (ikeRoleBit ctx.sa.role) m.messageID inner raw]) ++ m.log) =
            childGone m.log := by
        cases kind <;> rfl
      have hflag (hgone : childGone m.log = true) := h.flag (Machine.not_replacing_none hidle) hgone
      refine ⟨fun ctx' hctx' => ?_, fun hgone => .inl (hflag (hlog ▸ hgone)),
        fun hgone _ _ _ => hflag (hlog ▸ hgone)⟩
      cases hctx'.unique rfl
      cases hasks with
      | childRekey _ _ _ _ _ _ hold _ => exact hold
  | drop _ hpending hkind =>
      refine .of_idle (Machine.not_replacing_none rfl) (h.flag fun ctx hctx => ?_)
      exact hkind ctx (hctx.unique hpending)
  | @abandon msgID ctx _ hpending =>
      refine .of_idle (Machine.not_replacing_none rfl) fun hgone => ?_
      cases hctx : ctx.reestablish with
      | true => simp
      | false => simp [h.rekey hgone ctx ⟨msgID, hpending⟩ hctx]
  | @refused x ctx hreply hlost' =>
      refine .of_idle (Machine.not_replacing_none rfl) fun hgone => ?_
      cases hctx : ctx.reestablish with
      | true =>
          cases hflag : m.reestablish with
          | true => rfl
          | false => exact (hlost (hlost' hctx hflag)).elim
      | false => exact h.rekey hgone ctx ⟨x.msgID, hreply.pending⟩ hctx
  | complete hreply hresult =>
      exact .of_idle (Machine.not_replacing_none rfl) fun hgone => by cases hgone
  | completeIKE hreply hresult =>
      refine .of_idle (Machine.not_replacing_none rfl) (h.flag fun ctx hctx => ?_)
      cases hctx.unique hreply.pending
  | accept hreq hexchange hctx hpending hstale haccept hraw =>
      exact .of_idle (Machine.not_replacing_of_rekeying hpending) fun hgone => by cases hgone
  | acceptIKE hreq hslot hexchange hctx hpending haccept hraw =>
      exact .of_idle (Machine.not_replacing_none rfl)
        (h.flag (Machine.not_replacing_of_rekeying hpending))
  | childDeleted => exact ⟨h.target, fun _ => .inl rfl, fun _ _ _ _ => rfl⟩
  | @lower msgID ctx hpending hctx =>
      refine ⟨h.target, fun _ => .inr ⟨ctx, msgID, hpending⟩, fun _ ctx' hctx' hfresh => ?_⟩
      cases Machine.Replacing.unique hctx' hpending
      rw [hctx] at hfresh
      cases hfresh

/-! ## Nothing is replaced that is not owed -/

/-- Every exchange that replaced a deleted Child SA was started when it was gone. -/
def Justified (log : List Event) : Prop :=
  ∀ older, (Event.started true :: older) <:+ log → childGone older = true

theorem Justified.cons {e : Event} {log : List Event} (h : Justified log)
    (he : e = .started true → childGone log = true) : Justified (e :: log) := by
  intro older hsuffix
  rcases List.suffix_cons_iff.mp hsuffix with heq | hsuffix
  · cases heq
    exact he rfl
  · exact h older hsuffix

/-- Events that start no such exchange. -/
theorem Justified.append {es log : List Event} (h : Justified log)
    (hes : Event.started true ∉ es) : Justified (es ++ log) := by
  induction es with
  | nil => exact h
  | cons e es ih =>
      rw [List.mem_cons, not_or] at hes
      exact (ih hes.2).cons fun he => (hes.1 he.symm).elim

/-- The flag and an exchange that replaces a deleted Child SA stand for one that is
gone. -/
structure Machine.Due (m : Machine) : Prop where
  flag : m.reestablish = true → childGone m.log = true
  exchange : ∀ ctx, m.Replacing ctx → ctx.reestablish = true → childGone m.log = true
  justified : Justified m.log

theorem Machine.Fresh.due (h : m.Fresh) : m.Due := by
  obtain ⟨ctx, hlog, -⟩ := h.log
  refine ⟨fun hflag => ?_, fun ctx hctx => (Machine.not_replacing_none h.pending ctx hctx).elim, ?_⟩
  · rw [h.flag] at hflag
    cases hflag
  · rw [hlog]
    exact Justified.cons (fun older hs => by cases hs with | intro pre hs => simp at hs) nofun

/-- Steps that raise no debt and start no exchange. -/
theorem Machine.Due.mono (h : m.Due) (hf : m'.reestablish = true → m.reestablish = true)
    (hp : ∀ ctx, m'.Replacing ctx → m.Replacing ctx) (hlog : childGone m'.log = childGone m.log)
    (hj : Justified m'.log) : m'.Due where
  flag hflag := hlog ▸ h.flag (hf hflag)
  exchange ctx hctx hre := hlog ▸ h.exchange ctx (hp ctx hctx) hre
  justified := hj

theorem Machine.Due.move (hstale : ¬ r.stale) (h : m.Due) (hmove : Move c r m m') : m'.Due := by
  have hnone {m' : Machine} (hp : m'.pending = none) (ctx : ChildRekeyCtx) (hctx : m'.Replacing ctx) :
      m.Replacing ctx := (Machine.not_replacing_none hp ctx hctx).elim
  cases hmove with
  | receive | finish | drop | refused | expire =>
      first
        | exact h.mono id (fun _ => id) rfl h.justified
        | exact h.mono id (hnone rfl) rfl h.justified
  | takeUp | handled | unanswered | dead | notice | resent | answer =>
      exact h.mono id (fun _ => id) rfl (h.justified.append (by simp))
  | @request kind exchange inner ctx raw hidle _ hctx hasks hraw =>
      have hlog : childGone ((startEvents kind ++ [Event.requested m.messageID raw true,
          .sealed .cur ctx exchange (ikeRoleBit ctx.sa.role) m.messageID inner raw]) ++ m.log) =
            childGone m.log := by
        cases kind <;> rfl
      have hgone (ctx' : ChildRekeyCtx) (hkind : kind = .childRekey ctx')
          (hre : ctx'.reestablish = true) : childGone m.log = true := by
        subst hkind
        cases hasks with
        | childRekey _ _ _ _ _ _ _ hflag => exact h.flag (hflag.trans hre)
      refine ⟨fun hflag => hlog ▸ h.flag hflag, fun ctx' hctx' hre => ?_, ?_⟩
      · exact hlog ▸ hgone ctx' (hctx'.unique rfl) hre
      · have hsealed : Justified ([Event.requested m.messageID raw true, .sealed .cur ctx
            exchange (ikeRoleBit ctx.sa.role) m.messageID inner raw] ++ m.log) :=
          h.justified.append (by simp)
        cases kind with
        | childRekey ctx' =>
            exact hsealed.cons fun he => hgone ctx' rfl (Event.started.inj he)
        | _ => exact hsealed
  | @abandon msgID ctx _ hpending =>
      refine ⟨fun hflag => ?_, fun ctx' hctx' => (Machine.not_replacing_none rfl ctx' hctx').elim,
        h.justified⟩
      rcases Bool.or_eq_true_iff.mp hflag with hflag | hre
      · exact h.flag hflag
      · exact h.exchange ctx ⟨msgID, hpending⟩ hre
  | complete hreply hresult =>
      exact ⟨nofun, fun ctx' hctx' => (Machine.not_replacing_none rfl ctx' hctx').elim,
        h.justified.append (by simp)⟩
  | completeIKE hreply hresult =>
      exact h.mono id (hnone rfl) rfl (h.justified.append (by simp))
  | accept hreq hexchange hctx hpending hstale' haccept hraw =>
      refine ⟨fun hflag => (hstale (hstale' hflag)).elim, fun ctx' hctx' => ?_,
        h.justified.append (by simp)⟩
      exact (Machine.not_replacing_of_rekeying hpending ctx' hctx').elim
  | acceptIKE hreq hslot hexchange hctx hpending haccept hraw =>
      exact h.mono id (hnone rfl) rfl (h.justified.append (by simp))
  | childDeleted =>
      exact ⟨fun _ => rfl, fun _ _ _ => rfl, h.justified.append (by simp)⟩
  | @lower msgID ctx hpending hctx =>
      exact h.mono nofun (fun _ => id) rfl h.justified

/-! ## Runs -/

/-- Whether the answer to a Child SA exchange of ours can be used: there is no error
notify, the proposal selects an enabled suite with an SPI of four octets, there is a
nonce, and the key exchange is the one we offered. -/
def usableAnswer (c : Crypto) (enabled : List EspSuite) (ctx : ChildRekeyCtx) (inner : Payloads) :
    Bool :=
  match collectPayloads true {} inner with
  | .error _ => false
  | .ok acc =>
      match acc.sa.bind fun sa => sa.proposals.head? with
      | none => false
      | some prop =>
          (selectedSuite prop enabled).isSome && prop.spi.length == 4 && acc.nonce.length != 0 &&
            match ctx.dh, acc.ke with
            | some dh, some ke => ke.group == dh.group && (dh.shared c ke.data).isOk
            | some _, none => selectedDHGroup prop == 0
            | none, some _ => false
            | none, none => true

theorem childRekeyKeys_of_usable {ctx : ChildRekeyCtx} {prop : Proposal} {suite : EspSuite}
    {ke : Option KEPayload} (ike : IKESA) (nr : Bytes) (hsuite : suite ∈ espSuites)
    (h : (match ctx.dh, ke with
      | some dh, some ke => ke.group == dh.group && (dh.shared c ke.data).isOk
      | some _, none => selectedDHGroup prop == 0
      | none, some _ => false
      | none, none => true) = true) :
    ∃ keys, childRekeyKeys c ike ctx prop suite nr ke = .ok keys := by
  have hderive (secret : Bytes) := ike.deriveChildKeys_ok c secret ctx.ni nr (keyLen_espSuites hsuite)
  unfold childRekeyKeys
  cases hdh : ctx.dh with
  | none =>
      cases ke with
      | none =>
          obtain ⟨keys, hkeys⟩ := hderive []
          exact ⟨keys, by simp [hkeys]⟩
      | some ke =>
          rw [hdh] at h
          cases h
  | some dh =>
      rw [hdh] at h
      cases ke with
      | none =>
          obtain ⟨keys, hkeys⟩ := hderive []
          have hgroup : selectedDHGroup prop = 0 := by simpa using h
          exact ⟨keys, by simp [hkeys, hgroup]⟩
      | some ke =>
          simp only [Bool.and_eq_true, beq_iff_eq] at h
          cases hshared : dh.shared c ke.data with
          | error e =>
              rw [hshared] at h
              cases h.2
          | ok secret =>
              obtain ⟨keys, hkeys⟩ := hderive secret
              exact ⟨keys, by simp [h.1, hkeys, hshared]⟩

theorem childRekeyResult_of_usable {enabled : List EspSuite} {ike : IKESA} {ctx : ChildRekeyCtx}
    {inner : Payloads} (henabled : ∀ s ∈ enabled, s ∈ espSuites)
    (h : usableAnswer c enabled ctx inner = true) :
    ∃ res, childRekeyResult c enabled ike ctx inner = .ok res := by
  unfold usableAnswer at h
  cases hacc : collectPayloads true {} inner with
  | error e =>
      rw [hacc] at h
      cases h
  | ok acc =>
      simp only [hacc] at h
      cases hprop : acc.sa.bind fun sa => sa.proposals.head? with
      | none =>
          rw [hprop] at h
          cases h
      | some prop =>
          simp only [hprop, Bool.and_eq_true, beq_iff_eq, bne_iff_ne] at h
          obtain ⟨⟨⟨hsel, hspi⟩, hnonce⟩, hke⟩ := h
          obtain ⟨saP, hsa, hhead⟩ := Option.bind_eq_some_iff.mp hprop
          obtain ⟨rest, hprops⟩ := List.head?_eq_some_iff.mp hhead
          obtain ⟨suite, hsuite⟩ := Option.isSome_iff_exists.mp hsel
          obtain ⟨respSPI, hresp⟩ := uint32_ok (b := prop.spi) (by omega)
          obtain ⟨keys, hkeys⟩ := childRekeyKeys_of_usable ike acc.nonce
            (henabled suite (mem_of_selectedSuite hsuite).1) hke
          have hresponse : childRekeyResponse enabled inner = .ok (prop, suite, acc.nonce, acc.ke) := by
            simp only [childRekeyResponse, hacc, ok_bind, hsa, hprops, hsuite]
            rw [if_neg (by simp [hspi]), if_neg hnonce]
            rfl
          exact ⟨(respSPI, suite, keys), by
            simp only [childRekeyResult, hresponse, ok_bind, hresp, hkeys, pure_eq_ok]⟩

/-- A deleted Child SA stays in place until another is installed. -/
def Machine.Tracks (m : Machine) : Prop :=
  ∀ child, deletedChild m.log = some child → m.child = some child

theorem Machine.Fresh.tracks (h : m.Fresh) : m.Tracks := by
  obtain ⟨ctx, hlog, -⟩ := h.log
  intro child hchild
  rw [hlog] at hchild
  cases hchild

theorem Machine.Tracks.move (h : m.Tracks) (hmove : Move c r m m') : m'.Tracks := by
  cases hmove with
  | @request kind =>
      intro child hchild
      refine h child ?_
      cases kind <;> exact hchild
  | complete => exact nofun
  | accept => exact nofun
  | childDeleted hchild =>
      intro child' hchild'
      cases hchild'
      exact hchild
  | _ => exact h

/-- The input is the answer to the exchange that replaces a deleted Child SA.  It cannot
be used, and the flag is not set. -/
def RefusesReplacement (c : Crypto) (env : Env) (d : Drive) (input : Input) : Prop :=
  ∃ raw hdr inner p ctx, input = .datagram raw ∧
    d.s.decodeIKE c env raw = .ok (hdr, inner, .cur) ∧ hdr.exchange = exchangeCreateChildSA ∧
    hdr.flags.isResponse = true ∧ d.s.pending = some p ∧ p.msgID = hdr.messageID ∧
    p.kind = .childRekey ctx ∧ ctx.reestablish = true ∧ d.s.childReestablish = false ∧
    usableAnswer c d.s.enabledESPSuites ctx inner = false

theorem admitted_of_not_refuses {env : Env} {d : Drive} {input : Input}
    (h : ¬ RefusesReplacement c env d input) :
    input.Admitted c env
      { recv := fun _ _ => True, lost := False, stale := True, closing := True } d := by
  cases input with
  | tick => trivial
  | done => trivial
  | datagram raw =>
      intro hdr inner slot hdecode
      refine ⟨trivial, fun ctx hl => h ?_, fun _ => trivial⟩
      obtain ⟨p, hp, hid, hkind⟩ := hl.pending
      have hslot : slot = .cur := hl.slot
      subst hslot
      refine ⟨raw, hdr, inner, p, ctx, rfl, hdecode, hl.exchange, hl.response, hp, hid, hkind,
        hl.reestablish, hl.flag, Bool.eq_false_iff.mpr fun husable => ?_⟩
      obtain ⟨res, hres⟩ := childRekeyResult_of_usable (fun _ => mem_of_mem_enabledSuites) husable
      exact hl.unusable res hres

/-- In a run without such an answer, a deleted Child SA is always being replaced. -/
theorem deletedChild_replaced {d : Drive} {fin : Bool}
    (h : Run c (fun env d input => ¬ RefusesReplacement c env d input) d fin) {child : ChildSA}
    (hgone : deletedChild d.log = some child) :
    d.s.child = some child ∧ (d.s.childReestablish = true ∨
      ∃ p ctx, d.s.pending = some p ∧ p.kind = .childRekey ctx ∧
        ctx.oldInSPI = child.initiatorSPI) := by
  obtain ⟨⟨howes, htracks⟩, -⟩ := h.invariant (fun m => m.Owes ∧ m.Tracks)
    (fun m hm => ⟨hm.owes, hm.tracks⟩) (fun m m' hm hmove => ⟨hm.1.move id hmove, hm.2.move hmove⟩)
    fun env d input => admitted_of_not_refuses
  have hchild : d.s.child = some child := htracks child hgone
  refine ⟨hchild, ?_⟩
  rcases howes.debt (by simp [childGone, Drive.view, hgone]) with hflag | ⟨ctx, msgID, hp⟩
  · exact .inl (by simpa [Drive.view] using hflag)
  · obtain ⟨child', hchild', htarget⟩ := howes.target ctx ⟨msgID, hp⟩
    obtain ⟨p, hpending, hkind⟩ := Option.map_eq_some_iff.mp hp
    cases hchild.symm.trans hchild'
    exact .inr ⟨p, ctx, hpending, (Prod.mk.inj hkind).2, htarget.symm⟩

/-- The input is a request for a Child SA that is accepted while the replacement of the
last one is still due. -/
def AcceptsOverdue (c : Crypto) (env : Env) (d : Drive) (input : Input) : Prop :=
  ∃ raw hdr inner slot, input = .datagram raw ∧
    d.s.decodeIKE c env raw = .ok (hdr, inner, slot) ∧ Staling d.s (.decoded hdr inner slot)

theorem admitted_of_not_acceptsOverdue {env : Env} {d : Drive} {input : Input}
    (h : ¬ AcceptsOverdue c env d input) :
    input.Admitted c env
      { recv := fun _ _ => True, lost := True, stale := False, closing := True } d := by
  cases input with
  | tick => trivial
  | done => trivial
  | datagram raw =>
      intro hdr inner slot hdecode
      exact ⟨trivial, fun _ _ => trivial, fun hs => h ⟨raw, hdr, inner, slot, rfl, hdecode, hs⟩⟩

/-- In a run without such a request, the flag is set only while the live Child SA is one
the peer has deleted, and only such a Child SA is replaced. -/
theorem childReestablish_deleted {d : Drive} {fin : Bool}
    (h : Run c (fun env d input => ¬ AcceptsOverdue c env d input) d fin) :
    (d.s.childReestablish = true → ∃ child, d.s.child = some child ∧
      deletedChild d.log = some child) ∧
    ∀ older, (Event.started true :: older) <:+ d.log → ∃ child, deletedChild older = some child := by
  obtain ⟨⟨hdue, htracks⟩, -⟩ := h.invariant (fun m => m.Due ∧ m.Tracks)
    (fun m hm => ⟨hm.due, hm.tracks⟩) (fun m m' hm hmove => ⟨hm.1.move id hmove, hm.2.move hmove⟩)
    fun env d input => admitted_of_not_acceptsOverdue
  refine ⟨fun hflag => ?_, fun older hs => ?_⟩
  · obtain ⟨child, hgone⟩ := Option.isSome_iff_exists.mp
      (hdue.flag (by simpa [Drive.view] using hflag))
    exact ⟨child, htracks child hgone, hgone⟩
  · exact Option.isSome_iff_exists.mp (hdue.justified older hs)

end

/-! ## Where the debt is lost -/

theorem deletedChild_replaced_sample :
    deletedChild sampleDeleted.log = (sampleSession .initiator).child ∧
      (sampleDeleted.s.childReestablish = true ∨ ∃ p ctx, sampleDeleted.s.pending = some p ∧
        p.kind = .childRekey ctx ∧ ctx.oldInSPI = 0x11) := by
  have hgone : deletedChild sampleDeleted.log = (sampleSession .initiator).child := by decide +kernel
  have hidle : (sampleStart .initiator).s.pending = none := by decide +kernel
  have hrun := run_sampleDeleted
    (P := fun env d input => ¬ RefusesReplacement Crypto.sample env d input) (by
      rintro ⟨raw, hdr, inner, p, ctx, -, -, -, -, hp, -⟩
      rw [hidle] at hp
      cases hp)
  exact ⟨hgone, (deletedChild_replaced hrun hgone).2⟩

/-- The peer refuses the exchange `msgID` of ours. -/
def sampleRefusal (msgID : UInt32) : Bytes :=
  fromResponder exchangeCreateChildSA flagResponse msgID
    [.notify { protocol := protocolNone, type := notifyNoProposalChosen }]

/-- The exchange is refused. -/
def sampleRefused : Drive := receiving 3 (sampleRefusal 2) sampleDeleted

/-- After an error notify nothing remembers that the Child SA is gone. -/
theorem deletedChild_forgotten :
    Run Crypto.sample (fun _ _ _ => True) sampleRefused false ∧
      deletedChild sampleRefused.log = sampleRefused.s.child ∧ sampleRefused.s.child.isSome = true ∧
      sampleRefused.s.childReestablish = false ∧ sampleRefused.s.pending = none := by
  obtain ⟨hgoes, hforgotten⟩ : goesOn [(3, .datagram (sampleRefusal 2))] sampleDeleted = true ∧
      deletedChild sampleRefused.log = sampleRefused.s.child ∧ sampleRefused.s.child.isSome = true ∧
      sampleRefused.s.childReestablish = false ∧ sampleRefused.s.pending = none := by decide +kernel
  exact ⟨(run_sampleDeleted trivial).receiving trivial (goesOn_cons.mp hgoes).1, hforgotten⟩

/-- A probe is outstanding when the Child SA is deleted, so the flag is set. -/
def sampleQueued : Drive :=
  receiving 40000000000 (sampleDelete 0) (ticking 40000000000 (sampleStart .initiator))

theorem run_sampleQueued {P : Env → Drive → Input → Prop}
    (htick : P (sampleEnv 40000000000) (sampleStart .initiator) .tick)
    (hdelete : P (sampleEnv 40000000000) (ticking 40000000000 (sampleStart .initiator))
      (.datagram (sampleDelete 0))) : Run Crypto.sample P sampleQueued false := by
  have hgoes : goesOn [(40000000000, .tick), (40000000000, .datagram (sampleDelete 0))]
      (sampleStart .initiator) = true := by decide +kernel
  simp only [goesOn_cons] at hgoes
  exact ((Run.start (starts_sampleStart .initiator)).ticking htick hgoes.1).receiving hdelete hgoes.2.1

theorem childReestablish_deleted_sample : sampleQueued.s.childReestablish = true ∧
    ∃ child, sampleQueued.s.child = some child ∧ deletedChild sampleQueued.log = some child := by
  obtain ⟨hflag, hclear⟩ : sampleQueued.s.childReestablish = true ∧
      (ticking 40000000000 (sampleStart .initiator)).s.childReestablish = false := by decide +kernel
  have hrun := run_sampleQueued
    (P := fun env d input => ¬ AcceptsOverdue Crypto.sample env d input)
    (by
      rintro ⟨raw, hdr, inner, slot, hinput, -⟩
      cases hinput)
    (by
      rintro ⟨raw, hdr, inner, slot, -, -, hs⟩
      have hset := hs.flag
      rw [hclear] at hset
      cases hset)
  exact ⟨hflag, (childReestablish_deleted hrun).1 hflag⟩

/-- The peer asks for a Child SA in place of the one it has deleted. -/
def sampleRequest (msgID : UInt32) : Bytes :=
  fromResponder exchangeCreateChildSA 0 msgID
    (childRekeyRequest espSuites false 0x22 false [0, 0, 0, 0x33] (List.replicate 32 5) none)

/-- The Child SA of the peer is installed. -/
def sampleReplaced : Drive := receiving 40000000000 (sampleRequest 1) sampleQueued

/-- The flag is still set, though the live Child SA is new and was never deleted. -/
theorem childReestablish_stale :
    Run Crypto.sample (fun _ _ _ => True) sampleReplaced false ∧
      sampleReplaced.s.childReestablish = true ∧ deletedChild sampleReplaced.log = none ∧
      sampleReplaced.s.child ≠ (sampleSession .initiator).child := by
  obtain ⟨hgoes, hstale⟩ : goesOn [(40000000000, .datagram (sampleRequest 1))] sampleQueued = true ∧
      sampleReplaced.s.childReestablish = true ∧ deletedChild sampleReplaced.log = none ∧
      sampleReplaced.s.child ≠ (sampleSession .initiator).child := by decide +kernel
  exact ⟨(run_sampleQueued trivial trivial).receiving trivial (goesOn_cons.mp hgoes).1, hstale⟩

end GoIpsec.Session
