import GoIpsec.Session.Acceptance
import GoIpsec.Session.Completion
import GoIpsec.Session.Window
import Mathlib.Data.List.Perm.Subperm

/-!
# Which request a response answers

A response names the request it answers by its Message ID only.  Message IDs start over
with every IKE SA, so the same number may be in use under the current IKE SA and under
the superseded one, and the session has to know under which of the two it decoded the
response.

The outstanding request was made under the current IKE SA: no request outlives a cutover.
The delete of the superseded IKE SA does outlive cutovers.  It is looked up under whatever
IKE SA was superseded last, and that is the one it was made under as long as it is gone
before the next cutover (`Settled`).
-/

set_option linter.dupNamespace false

namespace GoIpsec.Session

open Golang Ikemsg Ikesa

/-! ## Completions in the log -/

/-- The rekeys of ours that were completed, newest first: the IKE SA the response was
decoded under, and the Message ID of the request. -/
def completions : List Event → List RequestKey
  | [] => []
  | .install .initiator slot msgID _ :: log => ((lineage log).at slot, msgID) :: completions log
  | .cutover .initiator msgID _ :: log => (lineage log, msgID) :: completions log
  | _ :: log => completions log

/-- The rekey of ours that waits for its response, if `g` is the current IKE SA. -/
def Session.outstanding (s : Session) (g : Lineage) : List RequestKey :=
  match s.pending with
  | some p => if p.kind.isRekey then [(g, p.msgID)] else []
  | none => []

/-- The same exchange, or none. -/
def Continues (o o' : Option PendingExchange) : Prop :=
  ∀ p', o' = some p' → ∃ p, o = some p ∧ p'.kind = p.kind ∧ p'.msgID = p.msgID ∧ p'.raw = p.raw

/-- The exchange was started with the request that has the Message ID and the bytes. -/
def StartsAs (msgID : UInt32) (raw : Bytes) (o : Option PendingExchange) : Prop :=
  ∃ p, o = some p ∧ p.msgID = msgID ∧ p.raw = raw

/-- What an action that completes no Child SA does to the requests of ours: nothing, or it
makes one, or it puts another IKE SA in the place of the current one. -/
inductive Entry (may : Deed → Prop) (d d' : Drive) : Prop
  | keep (hlineage : lineage d'.log = lineage d.log) (hown : ownRequests d'.log = ownRequests d.log)
      (hdone : completions d'.log = completions d.log)
      (hpending : Continues d.s.pending d'.s.pending)
      (hdelete : Continues d.s.oldIKEDelete d'.s.oldIKEDelete)
  | ask (raw : Bytes) (hlineage : lineage d'.log = lineage d.log)
      (hown : ownRequests d'.log = ((lineage d.log, d.s.messageID), raw) :: ownRequests d.log)
      (hdone : completions d'.log = completions d.log)
      (hpending : Continues d.s.pending d'.s.pending ∨ StartsAs d.s.messageID raw d'.s.pending)
      (hdelete : Continues d.s.oldIKEDelete d'.s.oldIKEDelete ∨
        may .retire ∧ StartsAs d.s.messageID raw d'.s.oldIKEDelete)
  | cutover (role : Role) (hmay : may (.cutover role)) (hown : ownRequests d'.log = ownRequests d.log)
      (hdone : role = .responder → completions d'.log = completions d.log)
      (hidle : d'.s.pending = none) (hpending : d.s.pending = none)
      (hdelete : d'.s.oldIKEDelete = d.s.oldIKEDelete)

section

variable {c : Crypto} {env : Env} {may : Deed → Prop} {d d' : Drive}

theorem Continues.refl (o : Option PendingExchange) : Continues o o :=
  fun p hp => ⟨p, hp, rfl, rfl, rfl⟩

theorem Continues.of_eq {o o' : Option PendingExchange} (h : o' = o) : Continues o o' :=
  h ▸ .refl o

/-- An event that tells of no request, no completion and no cutover. -/
theorem Entry.of_log (hlog : ∃ es, d'.log = es ++ d.log ∧ ∀ log, lineage (es ++ log) = lineage log ∧
      ownRequests (es ++ log) = ownRequests log ∧ completions (es ++ log) = completions log)
    (hpending : Continues d.s.pending d'.s.pending)
    (hdelete : Continues d.s.oldIKEDelete d'.s.oldIKEDelete) : Entry may d d' := by
  obtain ⟨es, hlog, hes⟩ := hlog
  obtain ⟨hlineage, hown, hdone⟩ := hes d.log
  rw [← hlog] at hlineage hown hdone
  exact .keep hlineage hown hdone hpending hdelete

theorem Entry.encoded {slot : Slot} {exchange : ExchangeType} {flags : Flags} {msgID : UInt32}
    {inner : Payloads} {res : Go Bytes × Drive}
    (h : Encoded c slot exchange flags msgID inner d res) : Entry may d res.2 := by
  cases h with
  | failed e d' n n' hs hlog =>
      exact .of_log ⟨[], hlog, fun _ => ⟨rfl, rfl, rfl⟩⟩ (.of_eq (by rw [hs]; rfl))
        (.of_eq (by rw [hs]; rfl))
  | done raw d' n n' ctx hctx hraw hs hlog =>
      exact .of_log ⟨[_], hlog, fun _ => ⟨rfl, rfl, rfl⟩⟩ (.of_eq (by rw [hs]; rfl))
        (.of_eq (by rw [hs]; rfl))

theorem Action.entry (hfinish : ¬ may .finish) (hact : Action c env may d d') : Entry may d d' := by
  cases hact with
  | read | send => exact .keep rfl rfl rfl (.refl _) (.refl _)
  | encode => exact .encoded (encoded_encodeIn ..)
  | encodeEmpty => exact .encoded (encoded_encodeEmptyIn ..)
  | adopt p hraw hid hp => exact .ask _ rfl rfl rfl (.inr ⟨p, rfl, hid, hp⟩) (.inl (.refl _))
  | retire p hraw hid hp hfirst hmay =>
      exact .ask _ rfl rfl rfl (.inl (.refl _)) (.inr ⟨hmay, p, rfl, hid, hp⟩)
  | part => exact .ask _ rfl rfl rfl (.inl (.refl _)) (.inl (.refl _))
  | @again p next hp =>
      refine .keep rfl rfl rfl (fun p' hp' => ⟨p, hp, ?_⟩) (.refl _)
      cases hp'
      exact ⟨rfl, rfl, rfl⟩
  | @againOld p next hp =>
      refine .keep rfl rfl rfl (.refl _) fun p' hp' => ⟨p, hp, ?_⟩
      cases hp'
      exact ⟨rfl, rfl, rfl⟩
  | drop => exact .keep rfl rfl rfl nofun (.refl _)
  | dropOld | expire => exact .keep rfl rfl rfl (.refl _) nofun
  | @hurry p next hp =>
      refine .keep rfl rfl rfl (fun p' hp' => ⟨p, hp, ?_⟩) (.refl _)
      cases hp'
      exact ⟨rfl, rfl, rfl⟩
  | @record slot raw msgID hraw =>
      cases slot <;> exact .keep rfl rfl rfl (.refl _) (.refl _)
  | cutover role msgID new grace installed hidle hmay =>
      refine .cutover role hmay rfl (fun hrole => ?_) hidle hidle rfl
      subst hrole
      rfl
  | tune hsame =>
      exact .keep rfl rfl rfl (.of_eq (congrArg Core.pending hsame))
        (.of_eq (congrArg Core.oldIKEDelete hsame))
  | @log e he hmay =>
      refine .of_log ⟨[e], rfl, fun log => ?_⟩ (.refl _) (.refl _)
      cases e with
      | install role slot msgID u =>
          cases role with
          | initiator => exact (hfinish (hmay rfl)).elim
          | responder => exact ⟨rfl, rfl, rfl⟩
      | sealed | answered | requested | resent | cutover | established => cases he
      | _ => exact ⟨rfl, rfl, rfl⟩

/-! ## What is kept of the requests -/

/-- The completions are `ks`.  The outstanding request was made under the current IKE
SA, and the completions, those that are due and the outstanding rekey are rekeys of
different requests. -/
structure Books (ks due : List RequestKey) (d : Drive) : Prop where
  done : completions d.log = ks
  asked : ∀ p, d.s.pending = some p → ((lineage d.log, p.msgID), p.raw) ∈ ownRequests d.log
  once : (d.s.outstanding (lineage d.log) ++ (due ++ ks)).Subperm ((ownRequests d.log).map Prod.fst)

/-- The delete of a superseded IKE SA was made under the IKE SA `g`. -/
def DeleteUnder (g : Lineage) (d : Drive) : Prop :=
  ∀ p, d.s.oldIKEDelete = some p → ((g, p.msgID), p.raw) ∈ ownRequests d.log

variable {ks due : List RequestKey} {g g' : Lineage}

theorem outstanding_of_none {s : Session} (h : s.pending = none) : s.outstanding g = [] := by
  rw [Session.outstanding, h]

theorem outstanding_of_rekey {s : Session} {p : PendingExchange} (h : s.pending = some p)
    (hk : p.kind.isRekey = true) : s.outstanding g = [(g, p.msgID)] := by
  rw [Session.outstanding, h]
  exact if_pos hk

theorem Continues.outstanding {s s' : Session} (h : Continues s.pending s'.pending) :
    (s'.outstanding g).Sublist (s.outstanding g) := by
  cases hp' : s'.pending with
  | none =>
      rw [outstanding_of_none hp']
      exact List.nil_sublist _
  | some p' =>
      obtain ⟨p, hp, hkind, hid, -⟩ := h p' hp'
      rw [Session.outstanding, Session.outstanding, hp, hp']
      dsimp only
      rw [hkind, hid]

theorem StartsAs.outstanding {s : Session} {msgID : UInt32} {raw : Bytes}
    (h : StartsAs msgID raw s.pending) : (s.outstanding g).Sublist [(g, msgID)] := by
  obtain ⟨p, hp, rfl, -⟩ := h
  rw [Session.outstanding, hp]
  dsimp only
  split
  · exact List.Sublist.refl _
  · exact List.nil_sublist _

theorem Books.entry (h : Books ks due d) (hcut : ¬ may (.cutover .initiator)) (he : Entry may d d') :
    Books ks due d' := by
  cases he with
  | keep hlineage hown hdone hpending hdelete =>
      refine ⟨hdone.trans h.done, fun p' hp' => ?_, ?_⟩
      · obtain ⟨p, hp, -, hid, hraw⟩ := hpending p' hp'
        rw [hlineage, hown, hid, hraw]
        exact h.asked p hp
      · rw [hlineage, hown]
        exact (hpending.outstanding.append_right _).subperm.trans h.once
  | ask raw hlineage hown hdone hpending hdelete =>
      refine ⟨hdone.trans h.done, fun p' hp' => ?_, ?_⟩
      · rw [hlineage, hown]
        rcases hpending with hsame | ⟨p, hp, hid, hraw⟩
        · obtain ⟨p, hp, -, hid, hraw⟩ := hsame p' hp'
          rw [hid, hraw]
          exact List.mem_cons_of_mem _ (h.asked p hp)
        · cases hp.symm.trans hp'
          rw [hid, hraw]
          exact List.mem_cons_self
      · rw [hlineage, hown, List.map_cons]
        rcases hpending with hsame | hnew
        · exact (hsame.outstanding.append_right _).subperm.trans (h.once.cons_right _)
        · refine (hnew.outstanding.append_right _).subperm.trans ((List.subperm_cons _).mpr ?_)
          exact (List.sublist_append_right _ _).subperm.trans h.once
  | cutover role hmay hown hdone hidle hpending hdelete =>
      cases role with
      | initiator => exact (hcut hmay).elim
      | responder =>
          refine ⟨(hdone rfl).trans h.done, fun p hp => ?_, ?_⟩
          · rw [hidle] at hp
            cases hp
          · have honce := h.once
            rw [outstanding_of_none hpending] at honce
            rw [outstanding_of_none hidle, hown]
            exact honce

theorem Books.self (h : Books ks due d) : Books (completions d.log) due d := h.done.symm ▸ h

/-- Nothing was asked yet. -/
theorem books_of_fresh {ctx : IkeCtx} (hlog : d.log = [.established ctx]) (hidle : d.s.pending = none) :
    Books (completions d.log) [] d := by
  refine ⟨rfl, fun p hp => ?_, ?_⟩
  · rw [hidle] at hp
    cases hp
  · rw [outstanding_of_none hidle, hlog]
    exact List.Subperm.refl []

theorem Books.action (h : Books ks due d) (hfinish : ¬ may .finish)
    (hcut : ¬ may (.cutover .initiator)) (hact : Action c env may d d') : Books ks due d' :=
  h.entry hcut (hact.entry hfinish)

/-- Without a cutover the delete stays where it was made. -/
theorem DeleteUnder.action (h : lineage d.log = g ∧ DeleteUnder g' d) (hfinish : ¬ may .finish)
    (hcut : ∀ role, ¬ may (.cutover role)) (hretire : may .retire → g = g')
    (hact : Action c env may d d') : lineage d'.log = g ∧ DeleteUnder g' d' := by
  obtain ⟨hg, hunder⟩ := h
  cases hact.entry hfinish with
  | keep hlineage hown hdone hpending hdelete =>
      refine ⟨hlineage.trans hg, fun p' hp' => ?_⟩
      obtain ⟨p, hp, -, hid, hraw⟩ := hdelete p' hp'
      rw [hown, hid, hraw]
      exact hunder p hp
  | ask raw hlineage hown hdone hpending hdelete =>
      refine ⟨hlineage.trans hg, fun p' hp' => ?_⟩
      rw [hown]
      rcases hdelete with hsame | ⟨hmay, p, hp, hid, hraw⟩
      · obtain ⟨p, hp, -, hid, hraw⟩ := hsame p' hp'
        rw [hid, hraw]
        exact List.mem_cons_of_mem _ (hunder p hp)
      · cases hp.symm.trans hp'
        rw [hid, hraw, hg, hretire hmay]
        exact List.mem_cons_self
  | cutover role hmay => exact (hcut role hmay).elim

/-- No delete is kept where none was, other than by the completion of an IKE SA. -/
theorem Action.undeleted (h : d.s.oldIKEDelete = none) (hfinish : ¬ may .finish)
    (hretire : ¬ may .retire) (hact : Action c env may d d') : d'.s.oldIKEDelete = none := by
  have hnone (hdelete : Continues d.s.oldIKEDelete d'.s.oldIKEDelete) : d'.s.oldIKEDelete = none := by
    refine Option.eq_none_iff_forall_ne_some.mpr fun p' hp' => ?_
    obtain ⟨p, hp, -⟩ := hdelete p' hp'
    rw [h] at hp
    cases hp
  cases hact.entry hfinish with
  | keep hlineage hown hdone hpending hdelete => exact hnone hdelete
  | ask raw hlineage hown hdone hpending hdelete =>
      rcases hdelete with hsame | ⟨hmay, -⟩
      · exact hnone hsame
      · exact (hretire hmay).elim
  | cutover role hmay hown hdone hidle hpending hdelete => exact hdelete.trans h

/-! ## A turn that completes a Child SA -/

theorem afterInstall_acts (ctx : ChildRekeyCtx) : Acts c env may d (afterInstall c env ctx) anyhow := by
  unfold afterInstall
  split
  · exact Acts.pure ()
  split
  · exact Acts.pure ()
  · exact sendChildDelete_acts _

theorem rearm_acts : Acts c env may d (rearm env) anyhow :=
  Acts.session_bind ((Quiet.jitteredDeadline _ _).any.bind fun _ _ _ => Acts.tune rfl)

/-- What follows the install of a Child SA of ours, to the end of the turn. -/
def settleChild (c : Crypto) (env : Env) (ctx : ChildRekeyCtx) : Drv Unit := do
  let err ← Proc.attempt (afterInstall c env ctx)
  match err with
  | some _ => return ()
  | none => rearm env

theorem settleChild_acts (ctx : ChildRekeyCtx) : Acts c env may d (settleChild c env ctx) anyhow := by
  refine (afterInstall_acts ctx).attempt_bind fun err d' => ?_
  cases err with
  | some text => exact Acts.pure ()
  | none => exact rearm_acts

theorem Encoded.oldIKEDelete_eq {slot : Slot} {exchange : ExchangeType} {flags : Flags}
    {msgID : UInt32} {inner : Payloads} {res : Go Bytes × Drive}
    (h : Encoded c slot exchange flags msgID inner d res) :
    res.2.s.oldIKEDelete = d.s.oldIKEDelete := by
  cases h with
  | failed e d' n n' hs hlog =>
      rw [hs]
      rfl
  | done raw d' n n' ctx hctx hraw hs hlog =>
      rw [hs]
      rfl

/-- A request of ours under the current IKE SA leaves the delete of the superseded one
alone. -/
theorem sendChildDelete_keeps (o : Option PendingExchange) (inSPI : UInt32) :
    Proc.Keeps (fun d => d.s.oldIKEDelete = o) (sendChildDelete c env inSPI) := by
  have hencode (flags : Flags) (msgID : UInt32) : Proc.Keeps (fun d => d.s.oldIKEDelete = o)
      (encodeSK c env exchangeInformational flags msgID (childDelete inSPI)) :=
    fun d hd => (encoded_encodeIn (c := c) .cur _ _ _ _ d).oldIKEDelete_eq.trans hd
  refine .bind .get fun s => .bind .get fun s => .bind (hencode _ _) fun raw => ?_
  exact .bind (fun d hd => hd) fun _ d hd => hd

theorem settleChild_keeps (o : Option PendingExchange) (ctx : ChildRekeyCtx) :
    Proc.Keeps (fun d => d.s.oldIKEDelete = o) (settleChild c env ctx) := by
  have hafter : Proc.Keeps (fun d => d.s.oldIKEDelete = o) (afterInstall c env ctx) :=
    .ite (.pure ()) (.ite (.pure ()) (sendChildDelete_keeps o _))
  have hrearm : Proc.Keeps (fun d => d.s.oldIKEDelete = o) (rearm env) := by
    intro d hd
    obtain ⟨t, d₁, -, hs, hrun⟩ : ∃ t d₁, _ ∧ _ ∧ rearm env d = _ := rearm_outcome d
    rw [hrun]
    exact (congrArg Session.oldIKEDelete hs).trans hd
  refine .bind hafter.attempt fun err => ?_
  cases err with
  | some text => exact .pure ()
  | none => exact hrearm

variable {inner : Payloads} {p : PendingExchange}

/-- The rekey that waits for its response is completed now. -/
theorem Books.complete (h : Books ks [] d) (hp : d.s.pending = some p) (hk : p.kind.isRekey = true)
    (hown : ownRequests d'.log = ownRequests d.log)
    (hdone : completions d'.log = (lineage d.log, p.msgID) :: completions d.log)
    (hidle : d'.s.pending = none) : Books ((lineage d.log, p.msgID) :: ks) [] d' := by
  refine ⟨hdone.trans (by rw [h.done]), fun q hq => ?_, ?_⟩
  · rw [hidle] at hq
    cases hq
  · have honce := h.once
    rw [outstanding_of_rekey hp hk] at honce
    rw [outstanding_of_none hidle, hown]
    exact honce

/-- A response to a Child SA exchange completes it or not.  Other requests may follow. -/
theorem completeMatchingRekey_child {ctx : ChildRekeyCtx} (hdp : d.s.dataPlane = true)
    (hp : d.s.pending = some p) (hk : p.kind = .childRekey ctx) (h : Books ks [] d)
    (hrun : completeMatchingRekey c env p.msgID inner .cur d = (.ok (), d')) :
    (Books ks [] d' ∨ Books ((lineage d.log, p.msgID) :: ks) [] d') ∧
      d'.s.oldIKEDelete = d.s.oldIKEDelete ∧
      ∀ g, DeleteUnder g d → lineage d'.log = lineage d.log ∧ DeleteUnder g d' := by
  rw [completeMatchingRekey_childRekey hp hk] at hrun
  cases hres : childRekeyResult c d.s.enabledESPSuites d.s.ikeSA ctx inner with
  | error e =>
      have hfailed : completion c env inner p ctx d = _ := completion_of_unusable hres
      have hend : d' = { d with s := { d.s with pending := none } } := by
        rcases Proc.attempt_bind_of_error hfailed with ⟨text, hgo⟩ | hgo
        · cases hgo.symm.trans hrun
          rfl
        · cases hgo.symm.trans hrun
      subst hend
      have hdrop : Action c env (fun _ => False) d { d with s := { d.s with pending := none } } := .drop
      exact ⟨.inl (h.action id id hdrop), rfl, fun g hunder => ⟨rfl, hunder⟩⟩
  | ok res =>
      obtain ⟨respSPI, suite, keys⟩ := res
      have hinstalled : completion c env inner p ctx d = _ := completion_of_usable hdp hres
      have hgo := (Proc.attempt_bind_congr hinstalled).symm.trans hrun
      obtain rfl : (settleChild c env ctx (installedFor env p ctx d respSPI suite keys)).2 = d' :=
        congrArg Prod.snd hgo
      have hacts : Acts c env (fun _ => False) (installedFor env p ctx d respSPI suite keys)
          (settleChild c env ctx) anyhow := settleChild_acts ctx
      have hrekey : p.kind.isRekey = true := by
        rw [hk]
        rfl
      refine ⟨.inr (hacts.keeps (fun _ _ hb => hb.action id id) (h.complete hp hrekey rfl rfl rfl)),
        settleChild_keeps _ ctx _ rfl, fun g hunder => ?_⟩
      exact hacts.keeps (fun _ _ hd => DeleteUnder.action hd id (fun _ => id) False.elim) ⟨rfl, hunder⟩

/-! ## A turn that completes an IKE SA -/

/-- Either nothing is done, or the IKE SA is deleted, under itself, and then superseded. -/
theorem completeIKERekey_outcome {ctx : IkeRekeyCtx} {msgID : UInt32} {r : Go Unit}
    (h : Books ks [(lineage d.log, msgID)] d) (hnone : d.s.oldIKEDelete = none)
    (hrun : completeIKERekey c env inner msgID ctx d = (r, d')) (hsafe : Safe r) :
    d' = d ∨ (Books ((lineage d.log, msgID) :: ks) [] d' ∧
      lineage d'.log = (.initiator, msgID) :: lineage d.log ∧ DeleteUnder (lineage d.log) d') := by
  rw [completeIKERekey, run_session_bind] at hrun
  cases hres : ikeRekeyResult c d.s.enabledIKESuites d.s.ikeSA.skd ctx inner with
  | error e =>
      rw [hres] at hrun
      have hend : (Except.error e, d) = (r, d') := hrun
      exact .inl (Prod.mk.inj hend).2.symm
  | ok res =>
      obtain ⟨newSPIr, newIKE⟩ := res
      rw [Proc.bind_lift_of_ok hres] at hrun
      have hacts : Acts c env (· = .retire) d (sendIKEDeleteUnderCurrent c env) anyhow :=
        sendIKEDeleteUnderCurrent_acts rfl
      have hfinish : ¬ Deed.finish = .retire := by simp
      have hcutover (role : Role) : ¬ Deed.cutover role = .retire := by simp
      have hbooks := hacts.keeps (fun _ _ hb => hb.action hfinish (hcutover .initiator)) h
      have hunder := hacts.keeps (fun _ _ hd => DeleteUnder.action hd hfinish hcutover fun _ => rfl)
        ⟨rfl, fun p hp => by rw [hnone] at hp; cases hp⟩
      rcases hdel : sendIKEDeleteUnderCurrent c env d with ⟨r₁, d₁⟩
      rw [hdel] at hbooks hunder
      by_cases hsafe₁ : Safe r₁
      · obtain ⟨o, hgo⟩ := Proc.attempt_bind_of_safe hdel hsafe₁
        obtain ⟨d₂, hswap, -, -, hlog, hidle, hkept⟩ : ∃ d₂, swapIKE env newIKE ctx.newSPIi newSPIr _ =
            (.ok (), d₂) ∧ _ :=
          swapIKE_run (d := d₁) c (fun _ => True) .initiator msgID newIKE ctx.newSPIi newSPIr trivial
        cases (hrun.symm.trans (hgo.trans (run_emit_bind _ _ _))).trans hswap
        refine .inr ⟨⟨?_, fun p hp => ?_, ?_⟩, ?_, fun p hp => ?_⟩
        · rw [hlog, completions, hunder.1, hbooks.done]
        · rw [hidle] at hp
          cases hp
        · rw [outstanding_of_none hidle, hlog]
          exact (List.sublist_append_right _ _).subperm.trans hbooks.once
        · rw [hlog, lineage, hunder.1]
        · rw [hkept] at hp
          rw [hlog]
          exact hunder.2 p hp
      · obtain ⟨e, he, hgo⟩ := Proc.attempt_bind_of_fault hdel hsafe₁
        cases hrun.symm.trans hgo
        obtain ⟨text, rfl⟩ := hsafe e rfl
        exact (he text rfl).elim

/-- A response to an IKE SA exchange completes it or not. -/
theorem completeMatchingRekey_ike {ctx : IkeRekeyCtx} (hp : d.s.pending = some p)
    (hk : p.kind = .ikeRekey ctx) (h : Books ks [] d) (hnone : d.s.oldIKEDelete = none)
    (hrun : completeMatchingRekey c env p.msgID inner .cur d = (.ok (), d')) :
    (Books ks [] d' ∧ d'.s.oldIKEDelete = none) ∨
      (Books ((lineage d.log, p.msgID) :: ks) [] d' ∧
        lineage d'.log = (.initiator, p.msgID) :: lineage d.log ∧ DeleteUnder (lineage d.log) d') := by
  have hrekey : p.kind.isRekey = true := by
    rw [hk]
    rfl
  simp only [completeMatchingRekey, run_session_bind, hp, ne_eq, not_true, if_false, hk,
    run_setSession_bind] at hrun
  rcases hx : completeIKERekey c env inner p.msgID ctx { d with s := { d.s with pending := none } } with
    ⟨r, d₁⟩
  by_cases hsafe : Safe r
  · obtain ⟨o, hgo⟩ := Proc.attempt_bind_of_safe hx hsafe
    cases hgo.symm.trans hrun
    have honce := h.once
    rw [outstanding_of_rekey hp hrekey] at honce
    have hdue : Books ks [(lineage d.log, p.msgID)] { d with s := { d.s with pending := none } } :=
      ⟨h.done, fun _ hnone => (by cases hnone), honce⟩
    rcases completeIKERekey_outcome (d := { d with s := { d.s with pending := none } }) hdue hnone hx
      hsafe with rfl | hdone
    · have hdrop : Action c env (fun _ => False) d { d with s := { d.s with pending := none } } := .drop
      exact .inl ⟨h.action id id hdrop, hnone⟩
    · exact .inr hdone
  · obtain ⟨e, he, hgo⟩ := Proc.attempt_bind_of_fault hx hsafe
    cases hgo.symm.trans hrun

/-! ## Other responses -/

/-- A response that completes no rekey of ours is ignored by the code for rekeys. -/
theorem completeMatchingRekey_other {msgID : UInt32} {slot : Slot}
    (hnot : slot = .cur → ∀ p, d.s.pending = some p → msgID = p.msgID → p.kind.isRekey = false) :
    completeMatchingRekey c env msgID inner slot d = (.ok (), d) := by
  cases slot with
  | old => rfl
  | cur =>
      rw [completeMatchingRekey, run_session_bind]
      cases hp : d.s.pending with
      | none => rfl
      | some p =>
          dsimp only
          by_cases hid : p.msgID = msgID
          · rw [if_neg (not_not.mpr hid)]
            have hk := hnot rfl p hp hid.symm
            cases hkind : p.kind with
            | childRekey ctx =>
                rw [hkind] at hk
                cases hk
            | ikeRekey ctx =>
                rw [hkind] at hk
                cases hk
            | _ => rfl
          · rw [if_pos hid]
            rfl

theorem clearPending_state (msgID : UInt32) (d : Drive) :
    (clearPending msgID d).2 = d ∨
      (∃ p, d.s.pending = some p ∧ msgID = p.msgID) ∧
        (clearPending msgID d).2 = { d with s := { d.s with pending := none } } := by
  change { d with s := match d.s.pending with
    | some p => if p.msgID = msgID ∧ p.kind.isRekey = false then { d.s with pending := none } else d.s
    | none => d.s } = d ∨ _ ∧ { d with s := match d.s.pending with
    | some p => if p.msgID = msgID ∧ p.kind.isRekey = false then { d.s with pending := none } else d.s
    | none => d.s } = _
  cases hp : d.s.pending with
  | none => exact .inl rfl
  | some p =>
      dsimp only
      split
      · rename_i hmatch
        exact .inr ⟨⟨p, rfl, hmatch.1.symm⟩, rfl⟩
      · exact .inl rfl

theorem clearOldIKEDelete_state (msgID : UInt32) (d : Drive) :
    (clearOldIKEDelete msgID d).2 = d ∨
      (∃ p, d.s.oldIKEDelete = some p ∧ msgID = p.msgID) ∧
        (clearOldIKEDelete msgID d).2 = { d with s := { d.s with oldIKEDelete := none } } := by
  change { d with s := match d.s.oldIKEDelete with
    | some p => if p.msgID = msgID then { d.s with oldIKEDelete := none } else d.s
    | none => d.s } = d ∨ _ ∧ { d with s := match d.s.oldIKEDelete with
    | some p => if p.msgID = msgID then { d.s with oldIKEDelete := none } else d.s
    | none => d.s } = _
  cases hp : d.s.oldIKEDelete with
  | none => exact .inl rfl
  | some p =>
      dsimp only
      split
      · rename_i hmatch
        exact .inr ⟨⟨p, rfl, hmatch.symm⟩, rfl⟩
      · exact .inl rfl

/-- What a response that completes nothing does: at most it clears the exchange it answers,
which is the one of the IKE SA it was decoded under. -/
inductive Cleared (hdr : Message) (d : Drive) : Slot → Drive → Prop
  | none {slot : Slot} : Cleared hdr d slot d
  | pending {p : PendingExchange} (hexchange : hdr.exchange = exchangeInformational)
      (hp : d.s.pending = some p) (hid : hdr.messageID = p.msgID) :
      Cleared hdr d .cur { d with s := { d.s with pending := none } }
  | oldDelete {p : PendingExchange} (hexchange : hdr.exchange = exchangeInformational)
      (hp : d.s.oldIKEDelete = some p) (hid : hdr.messageID = p.msgID) :
      Cleared hdr d .old { d with s := { d.s with oldIKEDelete := none } }

theorem Cleared.of_pending_ne {hdr : Message} {slot : Slot} (h : Cleared hdr d slot d')
    (hp : d.s.pending = some p) (hne : d'.s.pending ≠ some p) :
    slot = .cur ∧ hdr.exchange = exchangeInformational ∧ hdr.messageID = p.msgID := by
  cases h with
  | none => exact (hne hp).elim
  | pending hexchange hp' hid =>
      cases hp.symm.trans hp'
      exact ⟨rfl, hexchange, hid⟩
  | oldDelete => exact (hne hp).elim

theorem Cleared.of_oldIKEDelete_ne {hdr : Message} {slot : Slot} (h : Cleared hdr d slot d')
    (hp : d.s.oldIKEDelete = some p) (hne : d'.s.oldIKEDelete ≠ some p) :
    slot = .old ∧ hdr.exchange = exchangeInformational ∧ hdr.messageID = p.msgID := by
  cases h with
  | none => exact (hne hp).elim
  | pending => exact (hne hp).elim
  | oldDelete hexchange hp' hid =>
      cases hp.symm.trans hp'
      exact ⟨rfl, hexchange, hid⟩

theorem Cleared.apart {hdr : Message} (h : Cleared hdr d .old d') : d'.s.pending = d.s.pending := by
  cases h with
  | none => rfl
  | oldDelete => rfl

theorem dispatch_response {hdr : Message} {slot : Slot} (hresp : hdr.flags.isResponse = true)
    (hnot : slot = .cur → hdr.exchange = exchangeCreateChildSA → ∀ p, d.s.pending = some p →
      hdr.messageID = p.msgID → p.kind.isRekey = false) :
    Cleared hdr d slot (dispatch c env hdr inner slot d).2 := by
  unfold dispatch
  dsimp only
  rw [if_pos hresp, if_pos hresp]
  split
  · rename_i hexchange
    cases slot with
    | cur =>
        change Cleared hdr d .cur (clearPending hdr.messageID d).2
        rcases clearPending_state hdr.messageID d with hsame | ⟨⟨p, hp, hid⟩, hend⟩
        · rw [hsame]
          exact .none
        · rw [hend]
          exact .pending hexchange hp hid
    | old =>
        change Cleared hdr d .old (clearOldIKEDelete hdr.messageID d).2
        rcases clearOldIKEDelete_state hdr.messageID d with hsame | ⟨⟨p, hp, hid⟩, hend⟩
        · rw [hsame]
          exact .none
        · rw [hend]
          exact .oldDelete hexchange hp hid
  split
  · rename_i hexchange
    rw [Proc.bind_of_ok (completeMatchingRekey_other fun hslot => hnot hslot hexchange)]
    exact .none
  · exact .none

end

/-! ## Turns -/

/-- The turn takes in a message that decodes under the IKE SA of a slot. -/
def Turn.TakesIn (c : Crypto) (t : Turn) (hdr : Message) (inner : Payloads) (slot : Slot) : Prop :=
  ∃ raw, t.input = .datagram raw ∧ t.d.s.decodeIKE c t.env raw = .ok (hdr, inner, slot)

/-- The state after the turn. -/
def Turn.after (c : Crypto) (t : Turn) : Drive := (driverStep c t.env t.input t.d).2

/-- The request of ours with the Message ID and the bytes was made under the IKE SA of a
slot. -/
def Turn.Asked (t : Turn) (slot : Slot) (msgID : UInt32) (raw : Bytes) : Prop :=
  (((lineage t.d.log).at slot, msgID), raw) ∈ ownRequests t.d.log

/-- What a turn does with a response belongs to the request that the response answers. -/
structure Correlated (c : Crypto) (t : Turn) : Prop where
  /-- A rekey of ours is completed by a response to it, under the IKE SA it was made under,
  and no other with it. -/
  completes : completions (t.after c).log ≠ completions t.d.log → ∃ hdr inner p,
    t.TakesIn c hdr inner .cur ∧ hdr.exchange = exchangeCreateChildSA ∧ hdr.flags.isResponse = true ∧
    t.d.s.pending = some p ∧ p.kind.isRekey = true ∧ hdr.messageID = p.msgID ∧
    t.Asked .cur p.msgID p.raw ∧
    completions (t.after c).log = (lineage t.d.log, p.msgID) :: completions t.d.log
  /-- A probe or a delete is cleared by an INFORMATIONAL response to it. -/
  clears : ∀ hdr inner slot p, t.TakesIn c hdr inner slot → hdr.flags.isResponse = true →
    t.d.s.pending = some p → p.kind.isRekey = false → (t.after c).s.pending ≠ some p →
    slot = .cur ∧ hdr.exchange = exchangeInformational ∧ hdr.messageID = p.msgID ∧
      t.Asked slot p.msgID p.raw
  /-- So is the delete of the superseded IKE SA, under that. -/
  clearsOld : ∀ hdr inner slot p, t.TakesIn c hdr inner slot → hdr.flags.isResponse = true →
    t.d.s.oldIKEDelete = some p → (t.after c).s.oldIKEDelete ≠ some p →
    slot = .old ∧ lineage t.d.log ≠ [] ∧ hdr.exchange = exchangeInformational ∧
      hdr.messageID = p.msgID ∧ t.Asked slot p.msgID p.raw
  /-- A response under the superseded IKE SA leaves the outstanding request alone. -/
  apart : ∀ hdr inner, t.TakesIn c hdr inner .old → hdr.flags.isResponse = true →
    (t.after c).s.pending = t.d.s.pending ∧ completions (t.after c).log = completions t.d.log

/-- No IKE SA is superseded while the delete of the one before it still waits for its
response: neither by a request of the peer nor by a response to a request of ours. -/
def Settled (c : Crypto) (t : Turn) : Prop :=
  t.d.s.oldIKEDelete = none ∨ ∀ hdr inner, t.TakesIn c hdr inner .cur →
    hdr.exchange = exchangeCreateChildSA →
    (hdr.flags.isResponse = false → isIKERekey inner = false) ∧
    (hdr.flags.isResponse = true → ∀ p ctx, t.d.s.pending = some p → p.kind = .ikeRekey ctx →
      hdr.messageID ≠ p.msgID)

/-- The delete of the superseded IKE SA was made under it. -/
def Retired (d : Drive) : Prop :=
  (d.s.oldIKEDelete.isSome → lineage d.log ≠ []) ∧ DeleteUnder ((lineage d.log).at .old) d

section

variable {c : Crypto} {t : Turn} {hdr : Message} {inner : Payloads} {slot : Slot} {p : PendingExchange}

theorem retired_of_none {d : Drive} (h : d.s.oldIKEDelete = none) : Retired d := by
  constructor
  · rw [h]
    nofun
  · intro p hp
    rw [h] at hp
    cases hp

/-- The message is the response to the rekey that waits for it. -/
structure Turn.Completes (c : Crypto) (t : Turn) (hdr : Message) (inner : Payloads)
    (p : PendingExchange) : Prop where
  takes : t.TakesIn c hdr inner .cur
  exchange : hdr.exchange = exchangeCreateChildSA
  response : hdr.flags.isResponse = true
  pending : t.d.s.pending = some p
  rekey : p.kind.isRekey = true
  id : hdr.messageID = p.msgID

theorem Turn.TakesIn.unique {hdr' : Message} {inner' : Payloads} {slot' : Slot}
    (h : t.TakesIn c hdr inner slot) (h' : t.TakesIn c hdr' inner' slot') :
    hdr' = hdr ∧ inner' = inner ∧ slot' = slot := by
  obtain ⟨raw, hinput, hdecode⟩ := h
  obtain ⟨raw', hinput', hdecode'⟩ := h'
  cases hinput.symm.trans hinput'
  cases hdecode.symm.trans hdecode'
  exact ⟨rfl, rfl, rfl⟩

theorem Turn.TakesIn.step (h : t.TakesIn c hdr inner slot) :
    driverStep c t.env t.input t.d = dispatch c t.env hdr inner slot (heard t.env t.d) := by
  obtain ⟨raw, hinput, hdecode⟩ := h
  rw [hinput]
  exact handleInbound_decoded hdecode

/-- A turn that completes nothing may still take up an IKE SA of the peer. -/
theorem permits_of_not_completes {may : Deed → Prop} (h : ∀ hdr inner p, ¬ t.Completes c hdr inner p)
    (hmay : ∀ hdr inner, t.TakesIn c hdr inner .cur → hdr.exchange = exchangeCreateChildSA →
      hdr.flags.isResponse = false → isIKERekey inner = true → may (.cutover .responder)) :
    t.input.Permits c t.env may t.d.s := by
  cases hinput : t.input with
  | tick => trivial
  | done => trivial
  | datagram raw =>
      intro hdr inner slot hdecode
      constructor
      · rintro rfl hexchange hresp p hp hid
        have hnot (hk : p.kind.isRekey = true) : False :=
          h hdr inner p ⟨⟨raw, hinput, hdecode⟩, hexchange, hresp, hp, hk, hid.symm⟩
        cases hkind : p.kind with
        | childRekey ctx => exact (hnot (by rw [hkind]; rfl)).elim
        | ikeRekey ctx => exact (hnot (by rw [hkind]; rfl)).elim
        | _ => trivial
      · rintro rfl
        exact hmay hdr inner ⟨raw, hinput, hdecode⟩

theorem cleared_of_not_completes (h : ∀ hdr inner p, ¬ t.Completes c hdr inner p)
    (htakes : t.TakesIn c hdr inner slot) (hresp : hdr.flags.isResponse = true) :
    Cleared hdr (heard t.env t.d) slot (t.after c) := by
  rw [Turn.after, htakes.step]
  refine dispatch_response hresp ?_
  rintro rfl hexchange p hp hid
  exact Bool.eq_false_iff.mpr fun hk => h hdr inner p ⟨htakes, hexchange, hresp, hp, hk, hid⟩

/-- A turn that completes no rekey of ours. -/
theorem correlated_of_not_completes {ks : List RequestKey}
    (hnot : ∀ hdr inner p, ¬ t.Completes c hdr inner p) (hbooks : Books ks [] t.d) (hretired : Retired t.d) :
    Correlated c t ∧ Books ks [] (t.after c) := by
  have hpermits : t.input.Permits c t.env (· = .cutover .responder) t.d.s :=
    permits_of_not_completes hnot fun _ _ _ _ _ _ => rfl
  have hafter : Books ks [] (t.after c) :=
    driverStep_keeps_of_permits (fun _ _ hb => hb.action nofun nofun) hbooks t.input hpermits
  have hdone : completions (t.after c).log = completions t.d.log := hafter.done.trans hbooks.done.symm
  refine ⟨⟨fun hne => (hne hdone).elim, ?_, ?_, ?_⟩, hafter⟩
  · intro hdr inner slot p htakes hresp hp hk hne
    obtain ⟨rfl, hexchange, hid⟩ :=
      (cleared_of_not_completes hnot htakes hresp).of_pending_ne hp hne
    exact ⟨rfl, hexchange, hid, hbooks.asked p hp⟩
  · intro hdr inner slot p htakes hresp hp hne
    obtain ⟨rfl, hexchange, hid⟩ :=
      (cleared_of_not_completes hnot htakes hresp).of_oldIKEDelete_ne hp hne
    exact ⟨rfl, hretired.1 (by rw [hp]; rfl), hexchange, hid, hretired.2 p hp⟩
  · intro hdr inner htakes hresp
    exact ⟨(cleared_of_not_completes hnot htakes hresp).apart, hdone⟩

theorem retired_of_not_completes (hnot : ∀ hdr inner p, ¬ t.Completes c hdr inner p)
    (hretired : Retired t.d) (hsettled : Settled c t) : Retired (t.after c) := by
  by_cases hnone : t.d.s.oldIKEDelete = none
  · have hpermits : t.input.Permits c t.env (· = .cutover .responder) t.d.s :=
      permits_of_not_completes hnot fun _ _ _ _ _ _ => rfl
    exact retired_of_none (driverStep_keeps_of_permits (I := fun d => d.s.oldIKEDelete = none)
      (fun _ _ hd => Action.undeleted hd nofun nofun) hnone t.input hpermits)
  · have hmay := hsettled.resolve_left hnone
    have hpermits : t.input.Permits c t.env (fun _ => False) t.d.s := by
      refine permits_of_not_completes hnot fun hdr inner htakes hexchange hreq hike => ?_
      rw [(hmay hdr inner htakes hexchange).1 hreq] at hike
      cases hike
    obtain ⟨hlineage, hunder⟩ := driverStep_keeps_of_permits
      (fun _ _ hd => DeleteUnder.action hd id (fun _ => id) False.elim) ⟨rfl, hretired.2⟩ t.input
      hpermits
    refine ⟨fun _ => ?_, ?_⟩
    · rw [Turn.after, hlineage]
      exact hretired.1 (Option.isSome_iff_ne_none.mpr hnone)
    · rw [Turn.after, hlineage]
      exact hunder

theorem Turn.Completes.run {fin : Bool} {d' : Drive} (h : t.Completes c hdr inner p)
    (hstep : driverStep c t.env t.input t.d = (.ok fin, d')) :
    completeMatchingRekey c t.env p.msgID inner .cur (heard t.env t.d) = (.ok (), d') := by
  rw [h.takes.step, dispatch, if_neg (by rw [h.exchange]; decide), if_pos h.exchange,
    if_pos h.response, h.id] at hstep
  obtain ⟨_, d₁, hrun, hend⟩ := Proc.bind_eq_ok hstep
  cases hend
  exact hrun

/-- A turn that completes a rekey of ours, or finds that the response cannot be used. -/
theorem correlated_of_completes {ks : List RequestKey} (h : t.Completes c hdr inner p)
    (hbooks : Books ks [] t.d)
    (hafter : Books ks [] (t.after c) ∨ Books ((lineage t.d.log, p.msgID) :: ks) [] (t.after c))
    (hkept : ∀ p, t.d.s.oldIKEDelete = some p → (t.after c).s.oldIKEDelete = some p) :
    Correlated c t := by
  refine ⟨fun hne => ?_, fun hdr' inner' slot' p' _ _ hp' hk' => ?_, ?_, fun hdr' inner' htakes => ?_⟩
  · refine ⟨hdr, inner, p, h.takes, h.exchange, h.response, h.pending, h.rekey, h.id,
      hbooks.asked p h.pending, ?_⟩
    rcases hafter with hsame | hmore
    · exact (hne (hsame.done.trans hbooks.done.symm)).elim
    · rw [hmore.done, hbooks.done]
  · cases h.pending.symm.trans hp'
    rw [h.rekey] at hk'
    cases hk'
  · exact fun _ _ _ p' _ _ hp' hne => (hne (hkept p' hp')).elim
  · obtain ⟨-, -, hslot⟩ := h.takes.unique htakes
    cases hslot

/-- Every turn of a run is correlated, if it finds no delete of a superseded IKE SA where it
supersedes another one. -/
theorem correlated_step {fin : Bool} {d' : Drive} (hdp : t.d.s.dataPlane = true)
    (hbooks : Books (completions t.d.log) [] t.d) (hretired : Retired t.d) (hsettled : Settled c t)
    (hstep : driverStep c t.env t.input t.d = (.ok fin, d')) :
    Correlated c t ∧ Books (completions d'.log) [] d' ∧ Retired d' := by
  have hafter : t.after c = d' := by rw [Turn.after, hstep]
  by_cases hnot : ∀ hdr inner p, ¬ t.Completes c hdr inner p
  · obtain ⟨hcorrelated, hb⟩ := correlated_of_not_completes hnot hbooks hretired
    have hr := retired_of_not_completes hnot hretired hsettled
    rw [hafter] at hb hr
    exact ⟨hcorrelated, hb.self, hr⟩
  · simp only [not_forall, not_not] at hnot
    obtain ⟨hdr, inner, p, h⟩ := hnot
    have hrun := h.run hstep
    have hheard : Books (completions t.d.log) [] (heard t.env t.d) :=
      ⟨hbooks.done, hbooks.asked, hbooks.once⟩
    cases hkind : p.kind with
    | childRekey ctx =>
        obtain ⟨hb, hkept, hunder⟩ := completeMatchingRekey_child (d := heard t.env t.d) hdp h.pending
          hkind hheard hrun
        obtain ⟨hlineage, hunder⟩ := hunder _ hretired.2
        refine ⟨correlated_of_completes h hbooks (hafter ▸ hb) fun p' hp' => ?_, ?_, ?_, ?_⟩
        · rw [hafter, hkept]
          exact hp'
        · exact hb.elim Books.self Books.self
        · rw [hkept, hlineage]
          exact hretired.1
        · rw [hlineage]
          exact hunder
    | ikeRekey ctx =>
        have hnone : t.d.s.oldIKEDelete = none := by
          refine hsettled.resolve_right fun hmay => ?_
          exact (hmay hdr inner h.takes h.exchange).2 h.response p ctx h.pending hkind h.id
        have hkept (p' : PendingExchange) (hp' : t.d.s.oldIKEDelete = some p') :
            (t.after c).s.oldIKEDelete = some p' := by
          rw [hnone] at hp'
          cases hp'
        rcases completeMatchingRekey_ike (d := heard t.env t.d) h.pending hkind hheard hnone hrun with
          ⟨hb, hnone'⟩ | ⟨hb, hlineage, hunder⟩
        · exact ⟨correlated_of_completes h hbooks (hafter ▸ .inl hb) hkept, hb.self,
            retired_of_none hnone'⟩
        · refine ⟨correlated_of_completes h hbooks (hafter ▸ .inr hb) hkept, hb.self, fun _ => ?_, ?_⟩
          · rw [hlineage]
            nofun
          · rw [hlineage]
            exact hunder
    | dpd | delete =>
        have hrekey := h.rekey
        rw [hkind] at hrekey
        cases hrekey

end

/-- In a run in which no IKE SA is superseded while the delete of the one before it waits
for its response, a response only acts on the request it answers, under the IKE SA it was
decoded under, and no request of ours is completed twice. -/
theorem responses_correlated {c : Crypto} {env : Env} {s : Session} {ts : List Turn} {d : Drive}
    {fin : Bool} (hs : Established s) (hdelete : s.oldIKEDelete = none)
    (h : Reaches c (driverStart env { s }).2 ts d fin) (hsettled : ∀ t ∈ ts, Settled c t) :
    (∀ t ∈ ts, Correlated c t) ∧ (completions d.log).Subperm ((ownRequests d.log).map Prod.fst) := by
  suffices hinv : (∀ t ∈ ts, Correlated c t) ∧ Books (completions d.log) [] d ∧ Retired d by
    exact ⟨hinv.1, (List.sublist_append_right _ _).subperm.trans hinv.2.1.once⟩
  have hfresh : ((driverStart env { s }).2.view {}).Fresh := Starts.fresh ⟨env, s, hs, rfl⟩
  have hcore := driverStart_core env s
  induction h with
  | refl =>
      have hidle : (driverStart env { s }).2.s.pending = none :=
        (congrArg Core.pending hcore).trans hs.pending
      obtain ⟨ctx, hlog, -⟩ := hfresh.log
      refine ⟨List.forall_mem_nil _, books_of_fresh hlog hidle, retired_of_none ?_⟩
      exact (congrArg Core.oldIKEDelete hcore).trans hdelete
  | @turn ts d d' fin env' input h hstep ih =>
      have hdp : d.s.dataPlane = true := (h.invariant (r := anyTurn True) (fun _ => True) trivial
        hfresh.dataPlane (fun _ _ _ _ => trivial) fun _ _ => admitted_anyTurn fun _ => trivial).2
      obtain ⟨hall, hbooks, hretired⟩ := ih fun t ht => hsettled t (List.mem_cons_of_mem _ ht)
      obtain ⟨hcorrelated, hinv⟩ := correlated_step (t := ⟨env', d, input⟩) hdp hbooks hretired
        (hsettled _ List.mem_cons_self) hstep
      exact ⟨List.forall_mem_cons.mpr ⟨hcorrelated, hall⟩, hinv⟩

/-! ## A delete that is cleared by a response to another request -/

/-- A session whose IKE SA is due to be replaced soon. -/
def sampleAging : Session :=
  { sampleSession .initiator with cfg := { rekeyLifetime := 100000, ikeRekeyLifetime := 100 } }

theorem established_sampleAging : Established sampleAging := by
  constructor <;> rfl

def sampleAgingStart : Drive := (driverStart (sampleEnv 1) { s := sampleAging }).2

/-- The rekey of the IKE SA is started. -/
def sampleAged : Drive := ticking 1000 sampleAgingStart

/-- The peer accepts the rekey. -/
def sampleIKEAnswer : Bytes :=
  fromResponder exchangeCreateChildSA flagResponse 2
    ((ikeSuites.take 1).flatMap fun suite =>
      ikeRekeyAnswer 1 suite (putUint64 0x77) (List.replicate 32 7) sampleKey)

/-- The IKE SA is superseded, and its delete is sent. -/
def sampleSuperseded : Drive := receiving 1001 sampleIKEAnswer sampleAged

/-- The other end of an IKE SA. -/
def mirrored (sa : IKESA) : IKESA :=
  let other := { sa with role := sa.role.other, skSeq := 0 }
  { other with aead := other.aeadState }

/-- A message of the peer under the IKE SA that is current in `d`. -/
def fromPeer (d : Drive) (exchange : ExchangeType) (flags : Flags) (msgID : UInt32) (inner : Payloads) :
    Bytes :=
  valueD (encodeSKWith Crypto.sample (mirrored d.s.ikeSA) none d.s.initiatorSPI d.s.responderSPI
    exchange flags msgID inner).1 []

/-- The peer rekeys the new IKE SA at once. -/
def sampleIKERequest : Bytes := fromPeer sampleSuperseded exchangeCreateChildSA 0 0 sampleIKERekey

def sampleTwice : Drive := receiving 1002 sampleIKERequest sampleSuperseded

/-- A response under the second IKE SA, with the Message ID of the delete of the first. -/
def sampleLate : Bytes := fromPeer sampleSuperseded exchangeInformational flagResponse 3 []

/-- The turn in which a datagram comes in. -/
def takingAt (now : Time) (raw : Bytes) (d : Drive) : Turn where
  env := sampleEnv now
  d := d
  input := .datagram raw

def sampleAgingTurn : Turn where
  env := sampleEnv 1000
  d := sampleAgingStart
  input := .tick

theorem reaches_sampleSuperseded : Reaches Crypto.sample sampleAgingStart
    [takingAt 1001 sampleIKEAnswer sampleAged, sampleAgingTurn] sampleSuperseded false := by
  have hgoes : goesOn [(1000, .tick), (1001, .datagram sampleIKEAnswer)] sampleAgingStart = true := by
    decide +kernel
  simp only [goesOn_cons] at hgoes
  exact (Reaches.refl.ticking hgoes.1).receiving hgoes.2.1

theorem responses_correlated_sample :
    completions sampleSuperseded.log = [([], 2)] ∧
      ∀ t ∈ [takingAt 1001 sampleIKEAnswer sampleAged, sampleAgingTurn], Correlated Crypto.sample t := by
  obtain ⟨hcompleted, hsettled⟩ : completions sampleSuperseded.log = [([], 2)] ∧
      ∀ t ∈ [takingAt 1001 sampleIKEAnswer sampleAged, sampleAgingTurn],
        t.d.s.oldIKEDelete = none := by decide +kernel
  exact ⟨hcompleted, (responses_correlated established_sampleAging rfl reaches_sampleSuperseded
    fun t ht => .inl (hsettled t ht)).1⟩

theorem Correlated.asked_of_cleared {now : Time} {raw : Bytes} {d : Drive} {hdr : Message}
    {inner : Payloads} {slot : Slot} {p : PendingExchange}
    (h : Correlated Crypto.sample (takingAt now raw d))
    (hdecode : d.s.decodeIKE Crypto.sample (sampleEnv now) raw = .ok (hdr, inner, slot))
    (hresp : hdr.flags.isResponse = true) (hp : d.s.oldIKEDelete = some p)
    (hcleared : (receiving now raw d).s.oldIKEDelete = none) :
    ((lineage d.log).at .old, p.msgID) ∈ (ownRequests d.log).map Prod.fst := by
  have hne : ((takingAt now raw d).after Crypto.sample).s.oldIKEDelete ≠ some p := by
    intro hkept
    cases hcleared.symm.trans hkept
  obtain ⟨rfl, -, -, -, hasked⟩ := h.clearsOld hdr inner slot p ⟨raw, rfl, hdecode⟩ hresp hp hne
  exact List.mem_map_of_mem hasked

/-- The delete of the first IKE SA is cleared by a response under the second. -/
theorem late_response_clears_delete :
    Established sampleAging ∧ sampleAging.oldIKEDelete = none ∧
      ∃ ts d, Reaches Crypto.sample sampleAgingStart ts d false ∧ ∃ t ∈ ts, ¬ Correlated Crypto.sample t := by
  obtain ⟨hgoes, hresponse, ⟨p, hp, hforeign⟩, hcleared⟩ :
      goesOn [(1002, .datagram sampleIKERequest), (1003, .datagram sampleLate)] sampleSuperseded = true ∧
      (sampleTwice.s.decodeIKE Crypto.sample (sampleEnv 1003) sampleLate).toOption.any
        (·.1.flags.isResponse) = true ∧
      (∃ p ∈ sampleTwice.s.oldIKEDelete,
        ((lineage sampleTwice.log).at .old, p.msgID) ∉ (ownRequests sampleTwice.log).map Prod.fst) ∧
      (receiving 1003 sampleLate sampleTwice).s.oldIKEDelete = none := by decide +kernel
  simp only [goesOn_cons] at hgoes
  have hreach : Reaches Crypto.sample sampleAgingStart [takingAt 1003 sampleLate sampleTwice,
      takingAt 1002 sampleIKERequest sampleSuperseded, takingAt 1001 sampleIKEAnswer sampleAged,
      sampleAgingTurn] (receiving 1003 sampleLate sampleTwice) false :=
    (reaches_sampleSuperseded.receiving hgoes.1).receiving hgoes.2.1
  refine ⟨established_sampleAging, rfl, _, _, hreach, takingAt 1003 sampleLate sampleTwice,
    List.mem_cons_self, fun h => ?_⟩
  cases hdecode : sampleTwice.s.decodeIKE Crypto.sample (sampleEnv 1003) sampleLate with
  | ok x =>
      rw [hdecode] at hresponse
      exact hforeign (h.asked_of_cleared hdecode hresponse hp hcleared)
  | error e =>
      rw [hdecode] at hresponse
      cases hresponse

end GoIpsec.Session
