import GoIpsec.Session.Correlation
import GoIpsec.Session.Exchange
import GoIpsec.Session.Responder

/-!
# Two endpoints: what the log of each tells

Two sessions run the control loop against each other.  They started out with the two ends
of one IKE SA, and each of them rekeys it, and the Child SA, whenever it sees fit.  An IKE
SA is known by the cutovers that led to it, and the two endpoints know the same one by the
same cutovers in opposite parts (`Lineage.mirror`).

What an endpoint has said, which Child SAs it has installed and which IKE SAs it has had
is read off its log.  The moves of the machine keep what is said here of one endpoint
alone: of an IKE SA the ones before it are known, a request has a Message ID of its own, a
rekey is completed once, and a request of the peer is answered once.
-/

set_option linter.dupNamespace false

namespace GoIpsec.Session

open Golang Ikemsg Ikesa

/-- The IKE SA as the other endpoint knows it. -/
def Lineage.mirror (g : Lineage) : Lineage := g.map fun q => (q.1.other, q.2)

@[simp] theorem Lineage.mirror_mirror (g : Lineage) : g.mirror.mirror = g := by
  rw [mirror, mirror, List.map_map]
  conv_rhs => rw [← List.map_id g]
  exact List.map_congr_left fun q _ => by simp

@[simp] theorem Lineage.mirror_nil : Lineage.mirror [] = [] := rfl

@[simp] theorem Lineage.mirror_cons (role : Role) (msgID : UInt32) (g : Lineage) :
    Lineage.mirror ((role, msgID) :: g) = (role.other, msgID) :: g.mirror := rfl

@[simp] theorem Lineage.length_mirror (g : Lineage) : g.mirror.length = g.length :=
  List.length_map _

/-! ## What the log tells -/

/-- What a message in the envelope is about. -/
structure Speech where
  exchange : ExchangeType
  flags : Flags
  msgID : UInt32
  inner : Payloads
deriving DecidableEq

def Msg.speech (x : Msg) : Speech :=
  { exchange := x.exchange, flags := x.flags, msgID := x.msgID, inner := x.inner }

/-- The messages that were encoded, newest first, each with its IKE SA. -/
def speeches : List Event → List (Lineage × Speech)
  | [] => []
  | .sealed slot _ exchange flags msgID inner _ :: log =>
      ((lineage log).at slot, { exchange, flags, msgID, inner }) :: speeches log
  | _ :: log => speeches log

/-- The Child SAs that were installed in one of the two parts, newest first, each with the
exchange it was installed in. -/
def installs (part : Role) : List Event → List (RequestKey × ChildSAUpdate)
  | [] => []
  | .install role slot msgID u :: log =>
      if role = part then (((lineage log).at slot, msgID), u) :: installs part log
      else installs part log
  | _ :: log => installs part log

/-- The IKE SAs that were made current in one of the two parts, newest first, each with the
exchange it was made in. -/
def cutovers (part : Role) : List Event → List (RequestKey × IkeCtx)
  | [] => []
  | .cutover role msgID new :: log =>
      if role = part then ((lineage log, msgID), new.keys) :: cutovers part log
      else cutovers part log
  | _ :: log => cutovers part log

/-- All IKE SAs, newest first. -/
def ikeSAs : List Event → List (Lineage × IkeCtx)
  | [] => []
  | .established ctx :: log => ([], ctx.keys) :: ikeSAs log
  | .cutover role msgID new :: log => ((role, msgID) :: lineage log, new.keys) :: ikeSAs log
  | _ :: log => ikeSAs log

theorem mem_cutovers_iff {part : Role} {g : Lineage} {msgID : UInt32} {ctx : IkeCtx} {log : List Event} :
    ((g, msgID), ctx) ∈ cutovers part log ↔ ((part, msgID) :: g, ctx) ∈ ikeSAs log := by
  induction log with
  | nil => exact ⟨nofun, nofun⟩
  | cons e log ih =>
      cases e with
      | established ctx' =>
          change _ ∈ cutovers part log ↔ _ ∈ ([], ctx'.keys) :: ikeSAs log
          rw [ih, List.mem_cons]
          exact ⟨.inr, fun h => h.resolve_left nofun⟩
      | cutover role msgID' new =>
          rw [ikeSAs, cutovers]
          by_cases hrole : role = part
          · subst hrole
            rw [if_pos rfl, List.mem_cons, List.mem_cons, ih]
            simp only [Prod.mk.injEq, List.cons.injEq, true_and, and_comm]
          · rw [if_neg hrole, List.mem_cons, ih]
            refine ⟨.inr, fun h => h.resolve_left fun heq => hrole ?_⟩
            cases heq
            rfl
      | _ => exact ih

section

variable {c : Crypto} {r : Rules} {m m' : Machine} {log log' : List Event}

/-! ## What was told stays told -/

theorem speeches_suffix (h : log <:+ log') : speeches log ⊆ speeches log' := by
  obtain ⟨es, rfl⟩ := h
  induction es with
  | nil => exact List.Subset.refl _
  | cons e es ih =>
      cases e with
      | «sealed» => exact List.subset_cons_of_subset _ ih
      | _ => exact ih

theorem installs_suffix (part : Role) (h : log <:+ log') : installs part log ⊆ installs part log' := by
  obtain ⟨es, rfl⟩ := h
  induction es with
  | nil => exact List.Subset.refl _
  | cons e es ih =>
      cases e with
      | install role slot msgID u =>
          rw [List.cons_append, installs]
          split
          · exact List.subset_cons_of_subset _ ih
          · exact ih
      | _ => exact ih

theorem ikeSAs_suffix (h : log <:+ log') : ikeSAs log ⊆ ikeSAs log' := by
  obtain ⟨es, rfl⟩ := h
  induction es with
  | nil => exact List.Subset.refl _
  | cons e es ih =>
      cases e with
      | established => exact List.subset_cons_of_subset _ ih
      | cutover => exact List.subset_cons_of_subset _ ih
      | _ => exact ih

theorem cutovers_suffix (part : Role) (h : log <:+ log') : cutovers part log ⊆ cutovers part log' := by
  rintro ⟨⟨g, msgID⟩, ctx⟩ hmem
  exact mem_cutovers_iff.mpr (ikeSAs_suffix h (mem_cutovers_iff.mp hmem))

theorem at_suffix (g : Lineage) (slot : Slot) : g.at slot <:+ g := by
  cases slot with
  | cur => exact List.suffix_rfl
  | old => exact List.tail_suffix g

/-- A message was encoded under an IKE SA that the endpoint had. -/
theorem suffix_of_mem_speeches {g : Lineage} {y : Speech} (h : (g, y) ∈ speeches log) :
    g <:+ lineage log := by
  induction log with
  | nil => cases h
  | cons e log ih =>
      cases e with
      | «sealed» slot =>
          rcases List.mem_cons.mp h with heq | h
          · cases heq
            exact at_suffix _ slot
          · exact ih h
      | cutover => exact (ih h).trans (List.suffix_cons _ _)
      | _ => exact ih h

/-! ## IKE SAs -/

/-- Of an IKE SA one knows the IKE SAs before it, and no IKE SA is made twice. -/
structure Pedigree (log : List Event) : Prop where
  behind : ∀ g ctx, (g, ctx) ∈ ikeSAs log → g <:+ lineage log
  once : ((ikeSAs log).map Prod.fst).Nodup

theorem Pedigree.eq (h : Pedigree log) {g : Lineage} {x y : IkeCtx} (hx : (g, x) ∈ ikeSAs log)
    (hy : (g, y) ∈ ikeSAs log) : x = y :=
  congrArg Prod.snd (List.inj_on_of_nodup_map h.once hx hy rfl)

/-- An IKE SA beyond the current one has not been made. -/
theorem Pedigree.not_beyond (h : Pedigree log) (q : Role × UInt32) (ctx : IkeCtx) :
    (q :: lineage log, ctx) ∉ ikeSAs log := by
  intro hmem
  exact Nat.not_succ_le_self _ (h.behind _ _ hmem).length_le

theorem Pedigree.cutover (h : Pedigree log) (role : Role) (msgID : UInt32) (new : IkeCtx) :
    Pedigree (.cutover role msgID new :: log) := by
  constructor
  · intro g ctx hmem
    rcases List.mem_cons.mp hmem with heq | hmem
    · cases heq
      exact List.suffix_rfl
    · exact (h.behind g ctx hmem).trans (List.suffix_cons _ _)
  · refine List.nodup_cons.mpr ⟨fun hmem => ?_, h.once⟩
    obtain ⟨⟨g, ctx⟩, hmem, rfl⟩ := List.mem_map.mp hmem
    exact h.not_beyond _ ctx hmem

theorem Pedigree.move (h : Pedigree m.log) (hmove : Move c r m m') : Pedigree m'.log := by
  cases hmove with
  | completeIKE => exact h.cutover _ _ _
  | @acceptIKE x ctx new resp raw =>
      have hanswered : Pedigree (.answered .cur x.msgID raw ::
          .sealed .cur ctx exchangeCreateChildSA (answerFlags ctx) x.msgID resp raw :: m.log) :=
        ⟨h.behind, h.once⟩
      exact hanswered.cutover _ _ _
  | @request kind => cases kind <;> exact ⟨h.behind, h.once⟩
  | _ => exact ⟨h.behind, h.once⟩

/-! ## Requests of ours -/

/-- Not more requests than Message IDs were made under any IKE SA. -/
def FewRequests (log : List Event) : Prop := ∀ g, (requestIDs g log).length < 2 ^ 32

theorem ownRequests_suffix (h : log <:+ log') : (ownRequests log).Sublist (ownRequests log') := by
  obtain ⟨es, rfl⟩ := h
  induction es with
  | nil => exact List.Sublist.refl _
  | cons e es ih =>
      cases e with
      | requested => exact ih.trans (List.sublist_cons_self _ _)
      | _ => exact ih

theorem FewRequests.suffix (hfew : FewRequests log') (h : log <:+ log') : FewRequests log := by
  intro g
  have hsub : (requestIDs g log).Sublist (requestIDs g log') :=
    ((ownRequests_suffix h).filter _).map _
  exact Nat.lt_of_le_of_lt hsub.length_le (hfew g)

/-- What was said as a request under an IKE SA, newest first, by its Message ID. -/
def askings (log : List Event) : List (Lineage × Speech) :=
  (speeches log).filter fun q => !q.2.flags.isResponse

theorem mem_askings {g : Lineage} {y : Speech} :
    (g, y) ∈ askings log ↔ (g, y) ∈ speeches log ∧ y.flags.isResponse = false := by
  simp [askings]

/-- The requests that were encoded are those that were noted. -/
theorem Noted.askings (h : Noted log) :
    (askings log).map (fun q => (q.1, q.2.msgID)) = (ownRequests log).map Prod.fst := by
  fun_induction Noted log with
  | case1 => rfl
  | case2 msgID raw _ slot ctx exchange flags msgID' inner raw' log ih =>
      obtain ⟨rfl, hflags, rfl, rfl, h⟩ := h
      have hcons : Session.askings (.requested msgID' raw' ‹_› ::
          .sealed .cur ctx exchange flags msgID' inner raw' :: log) =
            (lineage log, { exchange, flags, msgID := msgID', inner }) :: Session.askings log :=
        List.filter_cons_of_pos (by simp [hflags])
      rw [hcons, List.map_cons, ih h]
      rfl
  | case3 => exact h.elim
  | case4 slot ctx exchange flags msgID inner raw log ih =>
      obtain ⟨hflags, h⟩ := h
      have hcons : Session.askings (.sealed slot ctx exchange flags msgID inner raw :: log) =
            Session.askings log :=
        List.filter_cons_of_neg (by simp [hflags])
      rw [hcons, ih h]
      rfl
  | case5 e log hpair hother hsealed ih =>
      cases e with
      | requested msgID raw idle => exact (hother msgID raw idle rfl).elim
      | «sealed» slot ctx exchange flags msgID inner raw => exact (hsealed _ _ _ _ _ _ _ rfl).elim
      | _ => exact ih h

/-- A request has a Message ID of its own under its IKE SA. -/
theorem askings_inj (hnoted : Noted log) {first : UInt32}
    (hids : ∀ g, Consecutive (firstID first g) (requestIDs g log)) (hfew : FewRequests log)
    {g : Lineage} {y z : Speech} (hy : (g, y) ∈ askings log) (hz : (g, z) ∈ askings log)
    (hid : y.msgID = z.msgID) : y = z := by
  have hnodup := nodup_requests hids hfew
  rw [← hnoted.askings] at hnodup
  exact congrArg Prod.snd (List.inj_on_of_nodup_map hnodup hy hz (congrArg (Prod.mk g) hid))

/-- The rekey of ours that waits for its response. -/
def Machine.outstanding (m : Machine) : List RequestKey :=
  match m.pending with
  | some (msgID, kind) => if kind.isRekey then [(lineage m.log, msgID)] else []
  | none => []

/-- Every rekey of ours that was completed, or waits for its response, is a request of
ours, and no two are the same. -/
def Machine.Accounts (m : Machine) : Prop :=
  (m.outstanding ++ completions m.log).Subperm ((ownRequests m.log).map Prod.fst)

theorem Machine.outstanding_of_none (h : m.pending = none) : m.outstanding = [] := by
  rw [outstanding, h]

theorem Machine.outstanding_of_rekey {msgID : UInt32} {kind : ExchangeKind}
    (h : m.pending = some (msgID, kind)) (hk : kind.isRekey = true) :
    m.outstanding = [(lineage m.log, msgID)] := by
  rw [outstanding, h]
  exact if_pos hk

/-- The outstanding rekey is given up. -/
theorem Machine.Accounts.give_up (h : m.Accounts) (hnone : m'.pending = none)
    (hdone : completions m'.log = completions m.log) (hown : ownRequests m'.log = ownRequests m.log) :
    m'.Accounts := by
  rw [Accounts, Machine.outstanding_of_none hnone, hdone, hown]
  exact (List.sublist_append_right _ _).subperm.trans h

/-- The outstanding rekey is completed. -/
theorem Machine.Accounts.complete (h : m.Accounts) {msgID : UInt32} {kind : ExchangeKind}
    (hpending : m.pending = some (msgID, kind)) (hk : kind.isRekey = true) (hnone : m'.pending = none)
    (hdone : completions m'.log = (lineage m.log, msgID) :: completions m.log)
    (hown : ownRequests m'.log = ownRequests m.log) : m'.Accounts := by
  rw [Accounts, Machine.outstanding_of_rekey hpending hk] at h
  rw [Accounts, Machine.outstanding_of_none hnone, hdone, hown]
  exact h

theorem Machine.Accounts.move (h : m.Accounts) (hmove : Move c r m m') : m'.Accounts := by
  cases hmove with
  | @request kind exchange inner ctx raw hidle =>
      rw [Accounts, Machine.outstanding_of_none hidle] at h
      have hask : ([(lineage m.log, m.messageID)] ++ completions m.log).Subperm
          ((lineage m.log, m.messageID) :: (ownRequests m.log).map Prod.fst) :=
        (List.subperm_cons _).mpr h
      cases kind with
      | dpd | delete => exact h.trans (List.sublist_cons_self _ _).subperm
      | childRekey | ikeRekey => exact hask
  | notice => exact h.trans (List.sublist_cons_self _ _).subperm
  | drop | abandon | refused | acceptIKE => exact h.give_up rfl rfl rfl
  | complete hreply | completeIKE hreply => exact h.complete hreply.pending rfl rfl rfl rfl
  | _ => exact h

/-! ## Answers of ours -/

/-- What was answered under an IKE SA that can be decoded under is covered by its cache. -/
structure Machine.Cached (m : Machine) : Prop where
  old : m.old.isSome = true → lineage m.log ≠ []
  depth : ∀ k ∈ (answers m.log).map Prod.fst, k.1.length ≤ (lineage m.log).length
  covers : ∀ slot, m.Usable slot → ∀ msgID,
    ((lineage m.log).at slot, msgID) ∈ (answers m.log).map Prod.fst → (m.dedup slot).covers msgID
  single : ((answers m.log).map Prod.fst).Nodup

/-- A request of the peer is answered once: one that is still to be answered is not covered. -/
structure Machine.Answers (m : Machine) : Prop extends m.Cached where
  msg : ∀ x, m.msg = some x → m.Usable x.slot
  busy : m.busy = true → m.opened = true
  fresh : m.busy = true → ∀ x, m.msg = some x → ¬ (m.dedup x.slot).covers x.msgID

theorem Machine.dedup_congr (hpeer : m'.peer = m.peer) (holdPeer : m'.oldPeer = m.oldPeer) (slot : Slot) :
    m'.dedup slot = m.dedup slot := by
  cases slot
  · exact hpeer
  · exact holdPeer

theorem Machine.Cached.congr (h : m.Cached) (hlineage : lineage m'.log = lineage m.log)
    (hanswers : answers m'.log = answers m.log) (hold : m'.old = m.old) (hpeer : m'.peer = m.peer)
    (holdPeer : m'.oldPeer = m.oldPeer) : m'.Cached := by
  refine ⟨?_, ?_, fun slot hs => ?_, ?_⟩
  · rw [hold, hlineage]
    exact h.old
  · rw [hanswers, hlineage]
    exact h.depth
  · rw [hlineage, hanswers, Machine.dedup_congr hpeer holdPeer]
    exact h.covers slot (hs.congr hold.symm)
  · rw [hanswers]
    exact h.single

/-- Steps that do not concern requests of the peer. -/
theorem Machine.Answers.congr (h : m.Answers) (hlineage : lineage m'.log = lineage m.log)
    (hanswers : answers m'.log = answers m.log) (hold : m'.old = m.old) (hpeer : m'.peer = m.peer)
    (holdPeer : m'.oldPeer = m.oldPeer) (hmsg : m'.msg = m.msg) (hopened : m'.opened = m.opened)
    (hbusy : m'.busy = m.busy) : m'.Answers := by
  refine ⟨h.toCached.congr hlineage hanswers hold hpeer holdPeer, fun x hx => ?_, ?_, ?_⟩
  · exact (h.msg x (hmsg ▸ hx)).congr hold
  · rw [hbusy, hopened]
    exact h.busy
  · rw [hbusy, hmsg]
    intro hb x hx
    rw [Machine.dedup_congr hpeer holdPeer]
    exact h.fresh hb x hx

theorem Machine.Answers.not_busy (h : m.Answers) (hopened : m.opened = false) : m.busy = false :=
  Bool.eq_false_iff.mpr fun hb => Bool.eq_false_iff.mp hopened (h.busy hb)

/-- The two IKE SAs of a session are different. -/
theorem Machine.Cached.at_ne (h : m.Cached) {slot slot' : Slot} (hslot : m.Usable slot)
    (hslot' : m.Usable slot') (hne : slot ≠ slot') :
    (lineage m.log).at slot ≠ (lineage m.log).at slot' := by
  have hne' (hold : m.Usable .old) : lineage m.log ≠ (lineage m.log).tail := by
    intro heq
    have hlen := congrArg List.length heq
    have hpos := List.length_pos_iff.mpr (h.old hold)
    rw [List.length_tail] at hlen
    omega
  cases slot <;> cases slot'
  · exact absurd rfl hne
  · exact hne' hslot'
  · exact (hne' hslot).symm
  · exact absurd rfl hne

/-- The cache covers what it covered, and the request that was answered. -/
theorem PeerDedup.covers_of_fresh {dd : PeerDedup} {msgID : UInt32} (hfresh : ¬ dd.covers msgID)
    (raw : Bytes) {id : UInt32} (h : dd.covers id) :
    ({ msgID, set := true, resp := raw } : PeerDedup).covers id := by
  have hlt : dd.msgID < msgID := UInt32.not_le.mp fun hle => hfresh ⟨h.1, hle⟩
  exact ⟨rfl, UInt32.le_trans h.2 (UInt32.le_of_lt hlt)⟩

/-- The request in hand is answered. -/
theorem Machine.Cached.record (h : m.Cached) {slot : Slot} {msgID : UInt32} {raw : Bytes}
    (hslot : m.Usable slot) (hfresh : ¬ (m.dedup slot).covers msgID)
    (hlineage : lineage m'.log = lineage m.log)
    (hanswers : answers m'.log = (((lineage m.log).at slot, msgID), raw) :: answers m.log)
    (hold : m'.old = m.old) (hdedup : m'.dedup slot = { msgID, set := true, resp := raw })
    (hother : ∀ slot', slot' ≠ slot → m'.dedup slot' = m.dedup slot') : m'.Cached := by
  have hkeys : (answers m'.log).map Prod.fst =
      ((lineage m.log).at slot, msgID) :: (answers m.log).map Prod.fst := by
    rw [hanswers, List.map_cons]
  refine ⟨?_, ?_, fun slot' hs id hid => ?_, ?_⟩
  · rw [hold, hlineage]
    exact h.old
  · rw [hkeys, hlineage]
    intro k hk
    rcases List.mem_cons.mp hk with rfl | hk
    · exact length_at_le _ slot
    · exact h.depth k hk
  · rw [hkeys, hlineage] at hid
    replace hs : m.Usable slot' := hs.congr hold.symm
    by_cases hne : slot' = slot
    · subst hne
      rw [hdedup]
      rcases List.mem_cons.mp hid with heq | hid
      · cases heq
        exact ⟨rfl, UInt32.le_refl _⟩
      · exact PeerDedup.covers_of_fresh hfresh raw (h.covers slot' hs id hid)
    · rw [hother slot' hne]
      rcases List.mem_cons.mp hid with heq | hid
      · exact (h.at_ne hs hslot hne (congrArg Prod.fst heq)).elim
      · exact h.covers slot' hs id hid
  · rw [hkeys]
    exact List.nodup_cons.mpr ⟨fun hmem => hfresh (h.covers slot hslot msgID hmem), h.single⟩

/-- A cutover moves the cache with its IKE SA, and nothing was answered under the new one. -/
theorem Machine.Cached.cutover (h : m.Cached) {q : Role × UInt32}
    (hlineage : lineage m'.log = q :: lineage m.log) (hanswers : answers m'.log = answers m.log)
    (hpeer : m'.oldPeer = m.peer) : m'.Cached := by
  refine ⟨fun _ => ?_, ?_, fun slot hs id hid => ?_, ?_⟩
  · rw [hlineage]
    nofun
  · rw [hanswers, hlineage]
    exact fun k hk => Nat.le_succ_of_le (h.depth k hk)
  · rw [hanswers, hlineage] at hid
    cases slot with
    | old =>
        rw [show m'.dedup .old = m.dedup .cur from hpeer]
        exact h.covers .cur trivial id hid
    | cur => exact (Nat.not_succ_le_self _ (h.depth _ hid)).elim
  · rw [hanswers]
    exact h.single

/-- The answer to the request in hand is cached. -/
theorem Machine.Answers.record (h : m.Answers) {x : Msg} {raw : Bytes} (hmsg : m.msg = some x)
    (hbusy : m.busy = true) (hlineage : lineage m'.log = lineage m.log)
    (hanswers : answers m'.log = (((lineage m.log).at x.slot, x.msgID), raw) :: answers m.log)
    (hold : m'.old = m.old)
    (hdedup : ∀ slot, m'.dedup slot = (m.record x.slot x.msgID raw).dedup slot) : m'.Cached := by
  refine h.toCached.record (h.msg x hmsg) (h.fresh hbusy x hmsg) hlineage hanswers hold ?_ ?_
  · rw [hdedup, Machine.dedup_record]
  · intro slot hne
    rw [hdedup, Machine.dedup_record_of_ne hne]

theorem Machine.Answers.move (hrecv : ∀ m x, r.recv m x → m.Usable x.slot) (h : m.Answers)
    (hmove : Move c r m m') : m'.Answers := by
  have hkept := h.toCached
  cases hmove with
  | receive x hx hopened =>
      refine ⟨hkept.congr rfl rfl rfl rfl rfl, fun y hy => ?_, h.busy, fun hb => ?_⟩
      · cases hy
        exact (hrecv m x hx).congr rfl
      · cases (h.not_busy hopened).symm.trans hb
  | finish hopened => exact ⟨hkept.congr rfl rfl rfl rfl rfl, nofun, h.busy, nofun⟩
  | @takeUp x hmsg hreq hopened hfresh =>
      refine ⟨hkept.congr rfl rfl rfl rfl rfl, fun y hy => (h.msg y hy).congr rfl, fun _ => rfl,
        fun _ y hy => ?_⟩
      cases hmsg.symm.trans hy
      exact hfresh
  | handled => exact ⟨hkept.congr rfl rfl rfl rfl rfl, fun y hy => (h.msg y hy).congr rfl, nofun, nofun⟩
  | @request kind => cases kind <;> exact h.congr rfl rfl rfl rfl rfl rfl rfl rfl
  | completeIKE hreply => exact ⟨hkept.cutover rfl rfl rfl, nofun, h.busy, nofun⟩
  | answer hreq | accept hreq =>
      refine ⟨h.record hreq.msg hreq.busy rfl rfl rfl fun slot => ?_, fun y hy => (h.msg y hy).congr rfl,
        nofun, nofun⟩
      rw [Machine.dedup_push]
      exact Machine.dedup_congr rfl rfl slot
  | @acceptIKE x ctx new resp raw hreq hslot =>
      have hans : ((m.record x.slot x.msgID raw).push [.answered x.slot x.msgID raw]).Cached :=
        h.record hreq.msg hreq.busy rfl rfl rfl fun slot => Machine.dedup_push _ _ slot
      rw [hslot] at hans
      exact ⟨hans.cutover rfl rfl rfl, nofun, nofun, nofun⟩
  | expire hmsg =>
      refine ⟨⟨nofun, h.depth, fun slot hs => ?_, h.single⟩, fun x hx => ?_, h.busy, fun _ x hx => ?_⟩
      · cases slot with
        | cur => exact h.covers .cur trivial
        | old => cases hs
      · cases hmsg.symm.trans hx
      · cases hmsg.symm.trans hx
  | _ => exact h.congr rfl rfl rfl rfl rfl rfl rfl rfl

/-! ## One endpoint -/

/-- What holds of every endpoint, whatever it is sent. -/
structure Machine.Orderly (first : UInt32) (m : Machine) : Prop where
  noted : Noted m.log
  counts : m.Counts first
  pedigree : Pedigree m.log
  accounts : m.Accounts
  answers : m.Answers
  served : ((installs .responder m.log).map Prod.fst).Sublist ((Session.answers m.log).map Prod.fst)

theorem Machine.Fresh.orderly (h : m.Fresh) : m.Orderly m.messageID := by
  obtain ⟨ctx, hlog, -⟩ := h.log
  have hlineage : lineage m.log = [] := by rw [hlog]; rfl
  have hanswers : Session.answers m.log = [] := by rw [hlog]; rfl
  refine ⟨h.noted.1, h.counts, ?_, ?_, ⟨⟨?_, ?_, ?_, ?_⟩, ?_, ?_, ?_⟩, ?_⟩
  · rw [hlog]
    refine ⟨fun g ctx' hmem => ?_, List.nodup_singleton _⟩
    cases List.mem_singleton.mp hmem
    exact List.suffix_rfl
  · rw [Accounts, outstanding_of_none h.pending, hlog]
    exact List.Subperm.refl _
  · rw [h.old]
    nofun
  · rw [hanswers]
    nofun
  · rw [hanswers]
    nofun
  · rw [hanswers]
    exact List.nodup_nil
  · rw [h.msg]
    nofun
  · rw [h.busy]
    nofun
  · rw [h.busy]
    nofun
  · rw [hlog]
    exact List.Sublist.refl _

theorem Machine.Orderly.move {first : UInt32} (hrecv : ∀ m x, r.recv m x → m.Usable x.slot)
    (h : m.Orderly first) (hmove : Move c r m m') : m'.Orderly first := by
  refine ⟨h.noted.move hmove, h.counts.move hmove, h.pedigree.move hmove, h.accounts.move hmove,
    h.answers.move hrecv hmove, ?_⟩
  have hserved := h.served
  cases hmove with
  | @request kind => cases kind <;> exact hserved
  | answer => exact hserved.trans (List.sublist_cons_self _ _)
  | accept => exact hserved.cons_cons _
  | acceptIKE => exact hserved.trans (List.sublist_cons_self _ _)
  | _ => exact hserved

theorem installs_sublist_completions (log : List Event) :
    ((installs .initiator log).map Prod.fst).Sublist (completions log) := by
  induction log with
  | nil => exact List.Sublist.refl _
  | cons e log ih =>
      cases e with
      | install role =>
          cases role with
          | initiator => exact ih.cons_cons _
          | responder => exact ih
      | cutover role =>
          cases role with
          | initiator => exact ih.trans (List.sublist_cons_self _ _)
          | responder => exact ih
      | _ => exact ih

/-- In each of its parts an endpoint installs one Child SA in an exchange, at most. -/
theorem Machine.Orderly.installs_nodup {first : UInt32} (h : m.Orderly first)
    (hfew : FewRequests m.log) (part : Role) : ((installs part m.log).map Prod.fst).Nodup := by
  cases part with
  | initiator =>
      have hdone : (completions m.log).Subperm ((ownRequests m.log).map Prod.fst) :=
        (List.sublist_append_right _ _).subperm.trans h.accounts
      obtain ⟨done, hperm, hsub⟩ := hdone
      have hnodup : (completions m.log).Nodup :=
        hperm.nodup_iff.mp ((nodup_requests h.counts.ids hfew).sublist hsub)
      exact hnodup.sublist (installs_sublist_completions m.log)
  | responder => exact h.answers.single.sublist h.served

theorem cutovers_sublist_ikeSAs (part : Role) (log : List Event) :
    ((cutovers part log).map fun q => (part, q.1.2) :: q.1.1).Sublist ((ikeSAs log).map Prod.fst) := by
  induction log with
  | nil => exact List.Sublist.refl _
  | cons e log ih =>
      cases e with
      | established => exact ih.trans (List.sublist_cons_self _ _)
      | cutover role msgID new =>
          rw [cutovers]
          split
          · rename_i hrole
            subst hrole
            exact ih.cons_cons _
          · exact ih.trans (List.sublist_cons_self _ _)
      | _ => exact ih

/-- In each of its parts an endpoint makes one IKE SA in an exchange, at most. -/
theorem Pedigree.cutovers_nodup (h : Pedigree log) (part : Role) :
    ((cutovers part log).map Prod.fst).Nodup := by
  have hnodup : (((cutovers part log).map Prod.fst).map fun k => (part, k.2) :: k.1).Nodup := by
    rw [List.map_map]
    exact h.once.sublist (cutovers_sublist_ikeSAs part log)
  exact hnodup.of_map _

end

end GoIpsec.Session
