import GoIpsec.Session.History

/-!
# Requests of the peer are processed once

A request of the peer is known by the IKE SA it was decoded under and its Message ID.
It is taken up unless the response cache of its SA covers it, and every way of
processing it ends with a response in that cache.  A cutover moves the cache with the
SA it belongs to.  So a request that was taken up once is covered for as long as its
SA can be decoded under.
-/

set_option linter.dupNamespace false

namespace GoIpsec.Session

open Golang Ikemsg Ikesa

/-- The requests that were taken up. -/
def takenUp (log : List Event) : List RequestKey := (requests log).map Prod.fst

section

variable {c : Crypto} {r : Rules} {m m' : Machine}

/-- The IKE SA of a slot can be decoded under. -/
def Machine.Usable (m : Machine) : Slot → Prop
  | .cur => True
  | .old => m.old.isSome = true

/-- The cache of a slot holds the response to the last request that was answered under
its IKE SA. -/
structure Machine.Caches (m : Machine) (slot : Slot) : Prop where
  covers : ∀ msgID raw, (((lineage m.log).at slot, msgID), raw) ∈ answers m.log →
    (m.dedup slot).covers msgID
  last : ∀ raw, (((lineage m.log).at slot, (m.dedup slot).msgID), raw) ∈ answers m.log →
    (m.dedup slot).resp = raw
  answered : (m.dedup slot).set = true →
    (((lineage m.log).at slot, (m.dedup slot).msgID), (m.dedup slot).resp) ∈ answers m.log

/-- The request in hand is the last one that was taken up.  Its cache does not cover it,
and it has had no effect but a Child SA exchange of ours that is still outstanding. -/
structure Machine.Serves (m : Machine) (x : Msg) (n : Nat) (rest : List (RequestKey × Nat)) :
    Prop where
  msg : m.msg = some x
  last : requests m.log = (((lineage m.log).at x.slot, x.msgID), n) :: rest
  fresh : ¬ (m.dedup x.slot).covers x.msgID
  effects : n = 0 ∨ n = 1 ∧ m.rekeying = true

/-- What holds of the requests of the peer as long as every response could be encoded. -/
structure Machine.Once (m : Machine) : Prop where
  bracket : processing m.log = m.opened
  old : m.old.isSome = true → lineage m.log ≠ []
  msg : ∀ x, m.msg = some x → m.Usable x.slot
  depth : ∀ k ∈ takenUp m.log, k.1.length ≤ (lineage m.log).length
  nodup : (takenUp m.log).Nodup
  effects : ∀ q ∈ requests m.log, q.2 ≤ 1
  caches : ∀ slot, m.Usable slot → m.Caches slot
  answered : ∀ a ∈ answers m.log, a.1 ∈ takenUp m.log
  single : ((answers m.log).map Prod.fst).Nodup
  settled : ∀ k ∈ takenUp m.log, k ∈ (answers m.log).map Prod.fst ∨
    m.busy = true ∧ ∃ x, m.msg = some x ∧ k = ((lineage m.log).at x.slot, x.msgID)
  serves : m.busy = true → m.opened = true ∧ ∃ x n rest, m.Serves x n rest

theorem Machine.Fresh.once (h : m.Fresh) : m.Once := by
  obtain ⟨ctx, hlog, -⟩ := h.log
  have hnone : answers m.log = [] ∧ requests m.log = [] ∧ lineage m.log = [] := by
    rw [hlog]
    exact ⟨rfl, rfl, rfl⟩
  obtain ⟨hanswers, hrequests, hlineage⟩ := hnone
  refine ⟨?_, ?_, ?_, ?_, ?_, ?_, fun slot _ => ⟨?_, ?_, ?_⟩, ?_, ?_, ?_, ?_⟩
  · rw [hlog, h.opened]
    rfl
  · rw [h.old]
    nofun
  · rw [h.msg]
    nofun
  · simp [takenUp, hrequests]
  · simp [takenUp, hrequests]
  · simp [hrequests]
  · simp [hanswers]
  · simp [hanswers]
  · intro hset
    cases slot
    · simp [Machine.dedup, h.peer] at hset
    · simp [Machine.dedup, h.oldPeer] at hset
  · simp [hanswers]
  · simp [hanswers]
  · simp [takenUp, hrequests]
  · rw [h.busy]
    nofun

theorem Machine.Caches.congr {slot : Slot} (h : m.Caches slot)
    (hlineage : lineage m'.log = lineage m.log) (hanswers : answers m'.log = answers m.log)
    (hdedup : m'.dedup slot = m.dedup slot) : m'.Caches slot := by
  obtain ⟨hcovers, hlast, hset⟩ := h
  constructor
  · rwa [hlineage, hanswers, hdedup]
  · rwa [hlineage, hanswers, hdedup]
  · rwa [hlineage, hanswers, hdedup]

theorem Machine.Usable.congr {slot : Slot} (h : m.Usable slot) (hold : m'.old = m.old) :
    m'.Usable slot := by
  cases slot with
  | cur => trivial
  | old => exact (congrArg Option.isSome hold).trans h

/-! ## Moves that do not concern requests of the peer -/

theorem Machine.Once.not_busy (h : m.Once) (hopened : m.opened = false) : m.busy = false := by
  cases hbusy : m.busy with
  | false => rfl
  | true =>
      rw [(h.serves hbusy).1] at hopened
      cases hopened

theorem Machine.Once.congr (h : m.Once) (hlineage : lineage m'.log = lineage m.log)
    (hrequests : requests m'.log = requests m.log) (hanswers : answers m'.log = answers m.log)
    (hprocessing : processing m'.log = processing m.log) (hold : m'.old = m.old)
    (hdedup : ∀ slot, m'.dedup slot = m.dedup slot) (hmsg : m'.msg = m.msg)
    (hopened : m'.opened = m.opened) (hbusy : m'.busy = m.busy)
    (hrekeying : m.busy = true → m.rekeying = true → m'.rekeying = true) : m'.Once := by
  have htaken : takenUp m'.log = takenUp m.log := by rw [takenUp, takenUp, hrequests]
  refine ⟨?_, ?_, ?_, ?_, ?_, ?_, fun slot hs => ?_, ?_, ?_, ?_, fun hb => ?_⟩
  · rw [hprocessing, hopened, h.bracket]
  · rw [hold, hlineage]
    exact h.old
  · intro x hx
    rw [hmsg] at hx
    exact (h.msg x hx).congr hold
  · rw [htaken, hlineage]
    exact h.depth
  · rw [htaken]
    exact h.nodup
  · rw [hrequests]
    exact h.effects
  · exact (h.caches slot (hs.congr hold.symm)).congr hlineage hanswers (hdedup slot)
  · rw [htaken, hanswers]
    exact h.answered
  · rw [hanswers]
    exact h.single
  · rw [htaken, hanswers, hbusy, hmsg, hlineage]
    exact h.settled
  · rw [hbusy] at hb
    obtain ⟨ho, x, n, rest, hx⟩ := h.serves hb
    refine ⟨hopened.trans ho, x, n, rest, hmsg.trans hx.msg, ?_, ?_, ?_⟩
    · rw [hrequests, hlineage]
      exact hx.last
    · rw [hdedup]
      exact hx.fresh
    · exact hx.effects.imp_right fun hn => ⟨hn.1, hrekeying hb hn.2⟩

/-- A message comes in, or the one in hand is done with. -/
theorem Machine.Once.setMsg (h : m.Once) (hopened : m.opened = false) {msg : Option Msg}
    (hmsg : ∀ x, msg = some x → m.Usable x.slot) : ({ m with msg := msg } : Machine).Once := by
  have hbusy := h.not_busy hopened
  refine ⟨h.bracket, h.old, fun x hx => (hmsg x hx).congr rfl, h.depth, h.nodup, h.effects, fun slot hs => ?_, h.answered,
    h.single, fun k hk => ?_, fun hb => ?_⟩
  · exact (h.caches slot (hs.congr rfl)).congr rfl rfl (by cases slot <;> rfl)
  · rcases h.settled k hk with hk | ⟨hb, -⟩
    · exact .inl hk
    · rw [hbusy] at hb
      cases hb
  · rw [hbusy] at hb
    cases hb

/-! ## Moves that do -/

/-- What was taken up before under the SA of a slot is covered. -/
theorem Machine.Once.fresh (h : m.Once) (hopened : m.opened = false) {slot : Slot} {msgID : UInt32}
    (hslot : m.Usable slot) (hfresh : ¬ (m.dedup slot).covers msgID) :
    ((lineage m.log).at slot, msgID) ∉ takenUp m.log := by
  intro hk
  rcases h.settled _ hk with hk | ⟨hb, -⟩
  · obtain ⟨⟨k, raw⟩, ha, rfl⟩ := List.mem_map.mp hk
    exact hfresh ((h.caches slot hslot).covers msgID raw ha)
  · rw [h.not_busy hopened] at hb
    cases hb

theorem Machine.Once.takeUp (h : m.Once) {x : Msg} (hmsg : m.msg = some x)
    (hopened : m.opened = false) (hfresh : ¬ (m.dedup x.slot).covers x.msgID) :
    (({ m with opened := true, busy := true } : Machine).push [.handling x.slot x.msgID]).Once := by
  have hslot := h.msg x hmsg
  refine ⟨rfl, h.old, fun x hx => (h.msg x hx).congr rfl, ?_, ?_, ?_, fun slot hs => ?_, fun a ha => ?_,
    h.single, fun k hk => ?_, fun _ => ?_⟩
  · intro k hk
    rcases List.mem_cons.mp hk with rfl | hk
    · change ((lineage m.log).at x.slot).length ≤ (lineage m.log).length
      cases x.slot
      · exact Nat.le_refl _
      · simp [Lineage.at]
    · exact h.depth k hk
  · exact List.nodup_cons.mpr ⟨h.fresh hopened hslot hfresh, h.nodup⟩
  · intro q hq
    rcases List.mem_cons.mp hq with rfl | hq
    · exact Nat.zero_le 1
    · exact h.effects q hq
  · exact (h.caches slot (hs.congr rfl)).congr rfl rfl (by cases slot <;> rfl)
  · exact List.mem_cons_of_mem _ (h.answered a ha)
  · rcases List.mem_cons.mp hk with rfl | hk
    · exact .inr ⟨rfl, x, hmsg, rfl⟩
    · rcases h.settled k hk with hk | ⟨hb, -⟩
      · exact .inl hk
      · rw [h.not_busy hopened] at hb
        cases hb
  · exact ⟨rfl, x, 0, requests m.log, hmsg, rfl, hfresh, .inl rfl⟩

theorem Machine.Once.handled (h : m.Once) (hbusy : m.busy = false) :
    (({ m with opened := false, busy := false } : Machine).push [.handled]).Once := by
  refine ⟨rfl, h.old, fun x hx => (h.msg x hx).congr rfl, h.depth, h.nodup, h.effects, fun slot hs => ?_, h.answered, h.single,
    fun k hk => ?_, nofun⟩
  · exact (h.caches slot (hs.congr rfl)).congr rfl rfl (by cases slot <;> rfl)
  · rcases h.settled k hk with hk | ⟨hb, -⟩
    · exact .inl hk
    · rw [hbusy] at hb
      cases hb

theorem length_at_le (g : Lineage) (slot : Slot) : (g.at slot).length ≤ g.length := by
  cases slot <;> simp [Lineage.at]

/-- The two IKE SAs of a session are different. -/
theorem Machine.Once.at_ne (h : m.Once) {slot slot' : Slot} (hslot : m.Usable slot)
    (hslot' : m.Usable slot') (hne : slot ≠ slot') :
    (lineage m.log).at slot ≠ (lineage m.log).at slot' := by
  have hne' (hold : m.Usable .old) : lineage m.log ≠ (lineage m.log).tail := by
    have hsome := h.old hold
    intro heq
    have hlen := congrArg List.length heq
    rw [List.length_tail] at hlen
    have hpos := List.length_pos_iff.mpr hsome
    omega
  cases slot <;> cases slot'
  · exact absurd rfl hne
  · exact hne' hslot'
  · exact (hne' hslot).symm
  · exact absurd rfl hne

/-- The first effect of a request is its only one. -/
theorem Machine.Once.bump_le (h : m.Once) {k : RequestKey} {rest : List (RequestKey × Nat)}
    (hlast : requests m.log = (k, 0) :: rest) : ∀ q ∈ bump (requests m.log), q.2 ≤ 1 := by
  intro q hq
  rw [hlast] at hq
  rcases List.mem_cons.mp hq with rfl | hq
  · exact Nat.le_refl 1
  · exact h.effects q (hlast ▸ List.mem_cons_of_mem _ hq)

/-- The request in hand has had no effect if no rekey of ours is outstanding. -/
theorem Machine.Serves.unused {x : Msg} {n : Nat} {rest : List (RequestKey × Nat)}
    (h : m.Serves x n rest) (hidle : m.rekeying = false) :
    requests m.log = (((lineage m.log).at x.slot, x.msgID), 0) :: rest := by
  rcases h.effects with rfl | ⟨-, hr⟩
  · exact h.last
  · rw [hidle] at hr
    cases hr

/-- A request of ours while a request of the peer is processed. -/
theorem Machine.Once.started (h : m.Once) (hbusy : m.busy = true)
    (hidle : m.rekeying = false) (hlineage : lineage m'.log = lineage m.log)
    (hrequests : requests m'.log = bump (requests m.log)) (hanswers : answers m'.log = answers m.log)
    (hprocessing : processing m'.log = processing m.log) (hold : m'.old = m.old)
    (hdedup : ∀ slot, m'.dedup slot = m.dedup slot) (hmsg : m'.msg = m.msg)
    (hopened : m'.opened = m.opened) (hbusy' : m'.busy = m.busy) (hrekeying : m'.rekeying = true) :
    m'.Once := by
  obtain ⟨ho, x, n, rest, hx⟩ := h.serves hbusy
  have hlast := hx.unused hidle
  have htaken : takenUp m'.log = takenUp m.log := by
    rw [takenUp, takenUp, hrequests, map_fst_bump]
  refine ⟨?_, ?_, ?_, ?_, ?_, hrequests ▸ h.bump_le hlast, fun slot hs => ?_, ?_, ?_, ?_,
    fun _ => ?_⟩
  · rw [hprocessing, hopened, h.bracket]
  · rw [hold, hlineage]
    exact h.old
  · intro x hx
    rw [hmsg] at hx
    exact (h.msg x hx).congr hold
  · rw [htaken, hlineage]
    exact h.depth
  · rw [htaken]
    exact h.nodup
  · exact (h.caches slot (hs.congr hold.symm)).congr hlineage hanswers (hdedup slot)
  · rw [htaken, hanswers]
    exact h.answered
  · rw [hanswers]
    exact h.single
  · rw [htaken, hanswers, hbusy', hmsg, hlineage]
    exact h.settled
  · refine ⟨hopened.trans ho, x, 1, rest, hmsg.trans hx.msg, ?_, ?_, .inr ⟨rfl, hrekeying⟩⟩
    · rw [hrequests, hlast, hlineage]
      rfl
    · rw [hdedup]
      exact hx.fresh

theorem Machine.Caches.record {slot : Slot} {msgID : UInt32} {raw : Bytes} (h : m.Caches slot)
    (hfresh : ¬ (m.dedup slot).covers msgID) (hlineage : lineage m'.log = lineage m.log)
    (hanswers : answers m'.log = (((lineage m.log).at slot, msgID), raw) :: answers m.log)
    (hdedup : m'.dedup slot = { msgID, set := true, resp := raw }) : m'.Caches slot := by
  constructor
  · intro id raw' ha
    rw [hdedup]
    rw [hlineage, hanswers] at ha
    rcases List.mem_cons.mp ha with heq | ha
    · cases heq
      exact ⟨rfl, UInt32.le_refl _⟩
    · obtain ⟨hset, hle⟩ := h.covers id raw' ha
      refine ⟨rfl, UInt32.le_trans hle ?_⟩
      exact UInt32.le_of_lt (UInt32.not_le.mp fun hle' => hfresh ⟨hset, hle'⟩)
  · intro raw' ha
    rw [hdedup] at ha ⊢
    rw [hlineage, hanswers] at ha
    rcases List.mem_cons.mp ha with heq | ha
    · cases heq
      rfl
    · exact (hfresh (h.covers msgID raw' ha)).elim
  · intro _
    rw [hlineage, hanswers, hdedup]
    exact List.mem_cons_self

/-- The request in hand is answered. -/
theorem Machine.Once.answer (h : m.Once) {x : Msg} {raw : Bytes} (hmsg : m.msg = some x)
    (hbusy : m.busy = true) (hlineage : lineage m'.log = lineage m.log)
    (hanswers : answers m'.log = (((lineage m.log).at x.slot, x.msgID), raw) :: answers m.log)
    (htaken : takenUp m'.log = takenUp m.log) (heffects : ∀ q ∈ requests m'.log, q.2 ≤ 1)
    (hprocessing : processing m'.log = processing m.log) (hold : m'.old = m.old)
    (hopened : m'.opened = m.opened) (hbusy' : m'.busy = false)
    (hmsg' : ∀ y, m'.msg = some y → m.msg = some y)
    (hdedup : m'.dedup x.slot = { msgID := x.msgID, set := true, resp := raw })
    (hother : ∀ slot, slot ≠ x.slot → m'.dedup slot = m.dedup slot) : m'.Once := by
  obtain ⟨-, y, n, rest, hy⟩ := h.serves hbusy
  obtain rfl : y = x := Option.some.inj (hy.msg.symm.trans hmsg)
  refine ⟨?_, ?_, ?_, ?_, ?_, heffects, fun slot hs => ?_, ?_, ?_, fun k hk => ?_, fun hb => ?_⟩
  · rw [hprocessing, hopened, h.bracket]
  · rw [hold, hlineage]
    exact h.old
  · intro z hz
    exact (h.msg z (hmsg' z hz)).congr hold
  · rw [htaken, hlineage]
    exact h.depth
  · rw [htaken]
    exact h.nodup
  · have hs' : m.Usable slot := hs.congr hold.symm
    by_cases hslot : slot = y.slot
    · subst hslot
      exact (h.caches _ hs').record hy.fresh hlineage hanswers hdedup
    · obtain ⟨hcovers, hlast, hset⟩ := h.caches slot hs'
      -- the new answer is under the other SA
      have hmem (id : UInt32) (raw' : Bytes) :
          (((lineage m.log).at slot, id), raw') ∈ answers m'.log ↔
            (((lineage m.log).at slot, id), raw') ∈ answers m.log := by
        have hne := h.at_ne hs' (h.msg y hmsg) hslot
        simp [hanswers, hne]
      constructor
      · intro id raw' ha
        rw [hlineage, hmem] at ha
        rw [hother slot hslot]
        exact hcovers id raw' ha
      · intro raw' ha
        rw [hother slot hslot] at ha ⊢
        rw [hlineage, hmem] at ha
        exact hlast raw' ha
      · rw [hother slot hslot, hlineage, hmem]
        exact hset
  · intro a ha
    rw [hanswers] at ha
    rw [htaken]
    rcases List.mem_cons.mp ha with rfl | ha
    · rw [takenUp, hy.last]
      exact List.mem_cons_self
    · exact h.answered a ha
  · rw [hanswers, List.map_cons]
    refine List.nodup_cons.mpr ⟨fun hk => ?_, h.single⟩
    obtain ⟨⟨k, raw'⟩, ha, rfl⟩ := List.mem_map.mp hk
    exact hy.fresh ((h.caches _ (h.msg y hmsg)).covers _ raw' ha)
  · rw [htaken] at hk
    left
    rw [hanswers, List.map_cons]
    rcases h.settled k hk with hk | ⟨-, z, hz, rfl⟩
    · exact List.mem_cons_of_mem _ hk
    · cases hmsg.symm.trans hz
      exact List.mem_cons_self
  · rw [hbusy'] at hb
    cases hb

theorem takenUp_cutover (role : Role) (msgID : UInt32) (ctx : IkeCtx) (log : List Event) :
    takenUp (.cutover role msgID ctx :: log) = takenUp log := by
  rw [takenUp, requests_effect rfl]
  split
  · exact map_fst_bump _
  · rfl

/-- A cutover, when no message is in hand that has not been answered. -/
theorem Machine.Once.cutover (h : m.Once) {role : Role} {msgID : UInt32} {new : IkeCtx}
    (hmsg : m.msg = none) (hbusy : m.busy = false)
    (heffects : m.opened = true → ∃ k rest, requests m.log = (k, 0) :: rest) :
    ((m.swap new).push [.cutover role msgID new]).Once := by
  have htaken : takenUp ((m.swap new).push [.cutover role msgID new]).log = takenUp m.log :=
    takenUp_cutover role msgID new m.log
  refine ⟨h.bracket, nofun, ?_, ?_, ?_, ?_, fun slot hs => ?_, ?_, h.single, fun k hk => ?_, ?_⟩
  · intro x hx
    cases hmsg.symm.trans hx
  · rw [htaken]
    exact fun k hk => Nat.le_succ_of_le (h.depth k hk)
  · rw [htaken]
    exact h.nodup
  · change ∀ q ∈ requests (.cutover role msgID new :: m.log), q.2 ≤ 1
    rw [requests_effect rfl]
    split
    · rename_i hproc
      obtain ⟨k, rest, hlast⟩ := heffects (h.bracket ▸ hproc)
      exact h.bump_le hlast
    · exact h.effects
  · cases slot with
    | old =>
        obtain ⟨hcovers, hlast, hset⟩ := h.caches .cur trivial
        exact ⟨hcovers, hlast, hset⟩
    | cur =>
        -- nothing was answered under the new SA
        have hnone (id : UInt32) (raw : Bytes) :
            (((role, msgID) :: lineage m.log, id), raw) ∉ answers m.log := by
          intro ha
          have hdepth := h.depth _ (h.answered _ ha)
          exact Nat.not_succ_le_self _ hdepth
        exact ⟨fun id raw ha => (hnone id raw ha).elim, fun raw ha => (hnone _ raw ha).elim, nofun⟩
  · rw [htaken]
    exact h.answered
  · rw [htaken] at hk
    rcases h.settled k hk with hk | ⟨hb, -⟩
    · exact .inl hk
    · rw [hbusy] at hb
      cases hb
  · intro hb
    rw [show ((m.swap new).push [.cutover role msgID new]).busy = false from hbusy] at hb
    cases hb

theorem Machine.Once.expire (h : m.Once) (hmsg : m.msg = none) :
    ({ m with old := none, oldPeer := {} } : Machine).Once := by
  refine ⟨h.bracket, nofun, ?_, h.depth, h.nodup, h.effects, fun slot hs => ?_, h.answered, h.single,
    h.settled, fun hb => ?_⟩
  · intro x hx
    cases hmsg.symm.trans hx
  · cases slot with
    | cur =>
        obtain ⟨hcovers, hlast, hset⟩ := h.caches .cur trivial
        exact ⟨hcovers, hlast, hset⟩
    | old => cases hs
  · obtain ⟨-, x, n, rest, hx⟩ := h.serves hb
    cases hmsg.symm.trans hx.msg

theorem Machine.Once.move (hrecv : ∀ m x, r.recv m x → m.Usable x.slot) (h : m.Once)
    (hmove : Move c r m m') (hanswered : Event.unanswered ∉ m'.log) : m'.Once := by
  have hclosed (hopened : m.opened = false) {P : Prop} (hb : m.busy = true) : P := by
    rw [h.not_busy hopened] at hb
    cases hb
  have hdedup (m' : Machine) (hpeer : m'.peer = m.peer) (holdPeer : m'.oldPeer = m.oldPeer)
      (slot : Slot) : m'.dedup slot = m.dedup slot := by
    cases slot
    · exact hpeer
    · exact holdPeer
  cases hmove with
  | receive x hx hopened =>
      refine h.setMsg hopened fun y hy => ?_
      cases hy
      exact hrecv m x hx
  | finish hopened => exact h.setMsg hopened fun _ hy => by cases hy
  | takeUp hmsg hreq hopened hfresh => exact h.takeUp hmsg hopened hfresh
  | handled hbusy => 
      refine h.handled (Bool.eq_false_iff.mpr fun hb => hanswered ?_)
      exact List.mem_cons_of_mem _ (hbusy hb)
  | unanswered => exact absurd List.mem_cons_self hanswered
  | dead | notice | resent | childDeleted | lower =>
      exact h.congr rfl rfl rfl rfl rfl (hdedup _ rfl rfl) rfl rfl rfl fun _ => id
  | drop hopened | abandon hopened =>
      exact h.congr rfl rfl rfl rfl rfl (hdedup _ rfl rfl) rfl rfl rfl (hclosed hopened)
  | refused hreply =>
      exact h.congr rfl rfl rfl rfl rfl (hdedup _ rfl rfl) rfl rfl rfl (hclosed hreply.opened)
  | @request kind exchange inner ctx raw hidle hfree hctx hasks hraw =>
      have hrekeying : m.rekeying = false := by simp [Machine.rekeying, hidle]
      cases kind with
      | childRekey ctx' =>
          by_cases hopened : m.opened = true
          · refine h.started (hfree hopened) hrekeying rfl ?_ rfl rfl rfl (hdedup _ rfl rfl) rfl rfl
              rfl rfl
            refine (requests_effect rfl).trans (if_pos ?_)
            exact h.bracket.trans hopened
          · rw [Bool.not_eq_true] at hopened
            refine h.congr rfl ?_ rfl rfl rfl (hdedup _ rfl rfl) rfl rfl rfl (hclosed hopened)
            refine (requests_effect rfl).trans (if_neg ?_)
            exact Bool.eq_false_iff.mp (h.bracket.trans hopened)
      | _ =>
          refine h.congr rfl rfl rfl rfl rfl (hdedup _ rfl rfl) rfl rfl rfl fun _ hr => ?_
          rw [hrekeying] at hr
          cases hr
  | complete hreply hresult =>
      refine h.congr rfl ?_ rfl rfl rfl (hdedup _ rfl rfl) rfl rfl rfl (hclosed hreply.opened)
      refine (requests_effect rfl).trans (if_neg ?_)
      exact Bool.eq_false_iff.mp (h.bracket.trans hreply.opened)
  | completeIKE hreply hresult =>
      have hnone : ({ m with msg := none } : Machine).Once :=
        h.setMsg hreply.opened fun _ hy => by cases hy
      refine hnone.cutover rfl (h.not_busy hreply.opened) fun hopened => ?_
      cases hreply.opened.symm.trans hopened
  | answer hreq hctx hinner hraw =>
      refine h.answer hreq.msg hreq.busy rfl rfl rfl h.effects rfl rfl rfl rfl (fun _ => id)
        (by simp) fun slot hslot => ?_
      rw [Machine.dedup_push, Machine.dedup_record_of_ne hslot]
      exact hdedup _ rfl rfl slot
  | @accept x ctx resp u raw hreq hexchange hctx hpending hstale haccept hraw =>
      obtain ⟨hopened, y, n, rest, hy⟩ := h.serves hreq.busy
      have hrequests : requests (.install .responder x.slot x.msgID u ::
          .sealed x.slot ctx exchangeCreateChildSA (answerFlags ctx) x.msgID resp raw :: m.log) =
            bump (requests m.log) :=
        (requests_effect rfl).trans (if_pos (h.bracket.trans hopened))
      refine h.answer hreq.msg hreq.busy rfl rfl ?_ ?_ rfl rfl rfl rfl (fun _ => id) (by simp)
        fun slot hslot => ?_
      · exact (congrArg (List.map Prod.fst) hrequests).trans (map_fst_bump _)
      · exact hrequests.symm ▸ h.bump_le (hy.unused hpending)
      · rw [Machine.dedup_push, Machine.dedup_record_of_ne hslot]
        exact hdedup _ rfl rfl slot
  | @acceptIKE x ctx new resp raw hreq hslot hexchange hctx hpending haccept hraw =>
      obtain ⟨-, y, n, rest, hy⟩ := h.serves hreq.busy
      have hans : ((({ m with busy := false, msg := none } : Machine).record .cur x.msgID raw).push
          [.answered .cur x.msgID raw, .sealed .cur ctx exchangeCreateChildSA (answerFlags ctx) x.msgID
            resp raw]).Once := by
        refine h.answer hreq.msg hreq.busy rfl (by rw [hslot]; rfl) rfl h.effects rfl rfl rfl rfl
          (fun _ hb => by cases hb) (by rw [hslot]; rfl) fun slot hne => ?_
        rw [hslot] at hne
        rw [Machine.dedup_push, Machine.dedup_record_of_ne hne]
        exact hdedup _ rfl rfl slot
      exact hans.cutover rfl rfl fun _ => ⟨_, rest, hy.unused hpending⟩
  | expire hmsg => exact h.expire hmsg

/-- What was taken up was answered, unless it is in hand. -/
theorem Machine.Once.exists_answer (h : m.Once) (hbusy : m.busy = false) {k : RequestKey}
    (hk : k ∈ takenUp m.log) : ∃ raw, (k, raw) ∈ answers m.log := by
  rcases h.settled k hk with hans | ⟨hb, -⟩
  · obtain ⟨⟨k, raw⟩, ha, rfl⟩ := List.mem_map.mp hans
    exact ⟨raw, ha⟩
  · rw [hbusy] at hb
    cases hb

/-! ## Runs -/

/-- The rules of a run in which anything may come in under an SA that can be decoded
under. -/
def anyInput : Rules where
  recv m x := m.Usable x.slot
  lost := True
  stale := True
  closing := True

theorem usable_of_decodeIKE {s : Session} {env : Env} {raw : Bytes} {hdr : Message}
    {inner : Payloads} {slot : Slot} (h : s.decodeIKE c env raw = .ok (hdr, inner, slot))
    (hslot : slot = .old) : s.oldIKE.isSome = true := by
  subst hslot
  unfold Session.decodeIKE at h
  split at h
  · cases h
  · cases hold : s.oldIKE with
    | none =>
        rw [hold] at h
        cases h
    | some old => rfl
  · cases h

theorem Drive.usable {d : Drive} {env : Env} {raw : Bytes} {hdr : Message} {inner : Payloads}
    {slot : Slot} (h : d.s.decodeIKE c env raw = .ok (hdr, inner, slot)) : (d.view {}).Usable slot := by
  cases slot with
  | cur => trivial
  | old => simpa [Machine.Usable, Drive.view] using usable_of_decodeIKE h rfl

theorem admitted_anyInput {env : Env} {d : Drive} {input : Input} :
    input.Admitted c env anyInput d := by
  cases input with
  | tick => trivial
  | done => trivial
  | datagram raw =>
      intro hdr inner slot hdecode
      exact ⟨Drive.usable hdecode, fun _ _ => trivial, fun _ => trivial⟩

theorem Run.once {d : Drive} {fin : Bool} (h : Run c (fun _ _ _ => True) d fin)
    (hanswered : Event.unanswered ∉ d.log) : (d.view {}).Once := by
  have hmove (m m' : Machine) (hm : Event.unanswered ∉ m.log → m.Once) (hmove : Move c anyInput m m')
      (hm' : Event.unanswered ∉ m'.log) : m'.Once :=
    (hm fun hmem => hm' (hmove.log_suffix.subset hmem)).move (fun _ _ => id) hmove hm'
  exact (h.invariant (fun m => Event.unanswered ∉ m.log → m.Once) (fun m hm _ => hm.once) hmove
    fun _ _ _ _ => admitted_anyInput).1 hanswered

/-- A request that was taken up is answered from the cache, or dropped. -/
theorem driverStep_takenUp {d : Drive} (h : (d.view {}).Once) {env : Env} {raw : Bytes}
    {hdr : Message} {inner : Payloads} {slot : Slot}
    (hdecode : d.s.decodeIKE c env raw = .ok (hdr, inner, slot))
    (hexchange : hdr.exchange = exchangeInformational ∨ hdr.exchange = exchangeCreateChildSA)
    (hreq : hdr.flags.isResponse = false)
    (htaken : ((lineage d.log).at slot, hdr.messageID) ∈ takenUp d.log) :
    (d.s.dedup slot).covers hdr.messageID ∧
    driverStep c env (.datagram raw) d = (.ok false, { d with
      s := { d.s with lastInbound := env.clock .inbound }
      sent := if hdr.messageID = (d.s.dedup slot).msgID then
          d.s.frame (d.s.dedup slot).resp :: d.sent else d.sent }) := by
  have hcovers : (d.s.dedup slot).covers hdr.messageID := by
    obtain ⟨resp, ha⟩ := h.exists_answer rfl htaken
    rw [← Drive.view_dedup]
    exact (h.caches slot (Drive.usable hdecode)).covers _ resp ha
  refine ⟨hcovers, ?_⟩
  rw [driverStep, handleInbound, run_session_bind, hdecode]
  dsimp only
  rw [run_setSession_bind]
  have hnot : ¬ hdr.flags.isResponse = true := by rw [hreq]; nofun
  unfold dispatch
  rcases hexchange with hinfo | hcreate
  · rw [if_pos hinfo, if_neg hnot]
    exact takeUp_covered _ (by cases slot <;> exact hcovers)
  · rw [if_neg (by rw [hcreate]; decide), if_pos hcreate, if_neg hnot]
    exact takeUp_covered _ (by cases slot <;> exact hcovers)

/-- Every request of the peer is processed at most once, with at most one effect.  A
later copy of it changes nothing but the liveness clock.  It is answered with the bytes
of the one response if it is the highest that was answered under its SA, and dropped
otherwise. -/
theorem requests_processed_once {d : Drive} {fin : Bool} (h : Run c (fun _ _ _ => True) d fin)
    (hanswered : Event.unanswered ∉ d.log) :
    (takenUp d.log).Nodup ∧ (∀ q ∈ requests d.log, q.2 ≤ 1) ∧
    ∀ env raw hdr inner slot, d.s.decodeIKE c env raw = .ok (hdr, inner, slot) →
      hdr.exchange = exchangeInformational ∨ hdr.exchange = exchangeCreateChildSA →
      hdr.flags.isResponse = false → ((lineage d.log).at slot, hdr.messageID) ∈ takenUp d.log →
      ∃ resp sent, (∀ resp', (((lineage d.log).at slot, hdr.messageID), resp') ∈ answers d.log ↔
          resp' = resp) ∧
        driverStep c env (.datagram raw) d = (.ok false, { d with
          s := { d.s with lastInbound := env.clock .inbound }, sent }) ∧
        (if ∀ a ∈ answers d.log, a.1.1 = (lineage d.log).at slot → a.1.2 ≤ hdr.messageID then
          sent = d.s.frame resp :: d.sent else sent = d.sent) := by
  have honce := h.once hanswered
  refine ⟨honce.nodup, honce.effects, fun env raw hdr inner slot hdecode hexchange hreq htaken => ?_⟩
  obtain ⟨hcovers, hstep⟩ := driverStep_takenUp honce hdecode hexchange hreq htaken
  obtain ⟨resp, hresp⟩ := honce.exists_answer rfl htaken
  obtain ⟨hall, hlast, hset⟩ := honce.caches slot (Drive.usable hdecode)
  simp only [Drive.view_dedup] at hall hlast hset
  refine ⟨resp, _, fun resp' => ⟨fun hresp' => ?_, fun heq => heq ▸ hresp⟩, hstep, ?_⟩
  · exact congrArg Prod.snd (List.inj_on_of_nodup_map honce.single hresp' hresp rfl)
  · split
    · rename_i hhighest
      have hid : hdr.messageID = (d.s.dedup slot).msgID :=
        UInt32.le_antisymm hcovers.2 (hhighest _ (hset hcovers.1) rfl)
      rw [if_pos hid, hlast resp (hid ▸ hresp)]
    · rename_i hhighest
      refine if_neg fun hid => hhighest fun a ha hslot => ?_
      rw [hid]
      exact (hall a.1.2 a.2 (hslot ▸ ha)).2

end

/-- A request of the sample session is taken up once, and a copy of it is answered
again. -/
theorem requests_processed_once_sample :
    requests sampleDeleted.log = [(([], 0), 1)] ∧
      ∃ sent, driverStep Crypto.sample (sampleEnv 3) (.datagram (sampleDelete 0)) sampleDeleted =
        (.ok false, { sampleDeleted with
          s := { sampleDeleted.s with lastInbound := 3 }, sent }) := by
  have hrequests : requests sampleDeleted.log = [(([], 0), 1)] := by decide +kernel
  have hlineage : lineage sampleDeleted.log = [] := by decide +kernel
  have hdecode : (match sampleDeleted.s.decodeIKE Crypto.sample (sampleEnv 3) (sampleDelete 0) with
      | .ok (hdr, _, slot) => decide (slot = .cur ∧ hdr.exchange = exchangeInformational ∧
          hdr.flags.isResponse = false ∧ hdr.messageID = 0)
      | .error _ => false) = true := by decide +kernel
  obtain ⟨-, -, hcopy⟩ := requests_processed_once (run_sampleDeleted trivial) (by decide +kernel)
  cases hres : sampleDeleted.s.decodeIKE Crypto.sample (sampleEnv 3) (sampleDelete 0) with
  | error e =>
      rw [hres] at hdecode
      cases hdecode
  | ok res =>
      obtain ⟨hdr, inner, slot⟩ := res
      rw [hres] at hdecode
      obtain ⟨rfl, hexchange, hreq, hid⟩ := of_decide_eq_true hdecode
      obtain ⟨resp, sent, -, hstep, -⟩ := hcopy (sampleEnv 3) (sampleDelete 0) hdr inner .cur hres
        (.inl hexchange) hreq (by simp [takenUp, hrequests, hlineage, Lineage.at, hid])
      exact ⟨hrequests, sent, hstep⟩

end GoIpsec.Session
