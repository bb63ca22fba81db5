import GoIpsec.Session.Actions
import GoIpsec.Session.History
import Mathlib.Data.List.Nodup

/-!
# The request window

At most one request of ours is outstanding, and a request that is not answered is
repeated a bounded number of times.  The Message IDs of the requests under one IKE SA
count up, from the counter the handshake left under the first IKE SA and from 0 under
each later one.

Which requests were made is read off the log.  Under which IKE SA, and with which
Message ID, follows from the moves of the exchange machine.  How often a request was
repeated follows from the actions on the session: the machine does not count.
-/

set_option linter.dupNamespace false

namespace GoIpsec.Session

open Golang Ikemsg Ikesa

/-! ## Requests of ours in the log -/

/-- The requests of ours, newest first: the IKE SA, the Message ID and the bytes. -/
def ownRequests : List Event → List (RequestKey × Bytes)
  | [] => []
  | .requested msgID raw _ :: log => ((lineage log, msgID), raw) :: ownRequests log
  | _ :: log => ownRequests log

/-- A message that was encoded as a request was noted right then, under the current
IKE SA and with its Message ID and its bytes, and nothing else was noted. -/
def Noted : List Event → Prop
  | [] => True
  | .requested msgID raw _ :: .sealed slot _ _ flags msgID' _ raw' :: log =>
      slot = .cur ∧ flags.isResponse = false ∧ msgID' = msgID ∧ raw' = raw ∧ Noted log
  | .requested _ _ _ :: _ => False
  | .sealed _ _ _ flags _ _ _ :: log => flags.isResponse = true ∧ Noted log
  | _ :: log => Noted log

/-- No request was made while another was outstanding. -/
def NeverCrowded (log : List Event) : Prop :=
  ∀ msgID raw idle, Event.requested msgID raw idle ∈ log → idle = true

/-- The Message IDs of the requests under an IKE SA, newest first. -/
def requestIDs (g : Lineage) (log : List Event) : List UInt32 :=
  ((ownRequests log).filter fun q => q.1.1 = g).map fun q => q.1.2

/-- The numbers count up from `first`, newest first. -/
def Consecutive (first : UInt32) : List UInt32 → Prop
  | [] => True
  | id :: ids => id = first + UInt32.ofNat ids.length ∧ Consecutive first ids

/-- The Message ID an IKE SA starts with. -/
def firstID (counter : UInt32) : Lineage → UInt32
  | [] => counter
  | _ :: _ => 0

theorem isResponse_ikeRoleBit (role : Role) : (ikeRoleBit role).isResponse = false := by
  cases role <;> rfl

theorem isResponse_answerFlags (ctx : IkeCtx) : (answerFlags ctx).isResponse = true := by
  unfold answerFlags
  cases ctx.sa.role <;> rfl

section

variable {c : Crypto} {r : Rules} {m m' : Machine}

theorem Noted.move (h : Noted m.log) (hmove : Move c r m m') : Noted m'.log := by
  cases hmove with
  | @request kind exchange inner ctx raw =>
      have hrequest : Noted (.requested m.messageID raw true ::
          .sealed .cur ctx exchange (ikeRoleBit ctx.sa.role) m.messageID inner raw :: m.log) :=
        ⟨rfl, isResponse_ikeRoleBit _, rfl, rfl, h⟩
      cases kind <;> exact hrequest
  | notice => exact ⟨rfl, isResponse_ikeRoleBit _, rfl, rfl, h⟩
  | answer => exact ⟨isResponse_answerFlags _, h⟩
  | accept => exact ⟨isResponse_answerFlags _, h⟩
  | acceptIKE => exact ⟨isResponse_answerFlags _, h⟩
  | _ => exact h

theorem NeverCrowded.append {es log : List Event} (h : NeverCrowded log)
    (hes : ∀ msgID raw idle, Event.requested msgID raw idle ∈ es → idle = true) :
    NeverCrowded (es ++ log) := by
  intro msgID raw idle hmem
  rcases List.mem_append.mp hmem with hnew | hold
  · exact hes msgID raw idle hnew
  · exact h msgID raw idle hold

theorem NeverCrowded.move (hclosing : ¬ r.closing) (h : NeverCrowded m.log)
    (hmove : Move c r m m') : NeverCrowded m'.log := by
  cases hmove with
  | @request kind => cases kind <;> exact h.append (by simp [startEvents])
  | notice idle hidle =>
      have hquiet : idle = true := Bool.not_eq_false _ ▸ fun hfalse => hclosing (hidle hfalse)
      exact h.append (by simp [hquiet])
  | takeUp | handled | unanswered | dead | resent | childDeleted => exact h.append (by simp)
  | answer | accept | acceptIKE | complete | completeIKE => exact h.append (by simp)
  | _ => exact h

/-! ## Message IDs count up -/

/-- Where the counter stands.  Nothing was asked under an IKE SA that is not reached
yet. -/
structure Machine.Counts (first : UInt32) (m : Machine) : Prop where
  ids : ∀ g, Consecutive (firstID first g) (requestIDs g m.log)
  next : m.messageID = firstID first (lineage m.log) +
    UInt32.ofNat (requestIDs (lineage m.log) m.log).length
  fresh : ∀ g : Lineage, (lineage m.log).length < g.length → requestIDs g m.log = []

variable {first : UInt32}

/-- Steps that make no request and change no IKE SA. -/
theorem Machine.Counts.congr (h : m.Counts first) (hlineage : lineage m'.log = lineage m.log)
    (hown : ownRequests m'.log = ownRequests m.log) (hid : m'.messageID = m.messageID) :
    m'.Counts first := by
  have hids (g : Lineage) : requestIDs g m'.log = requestIDs g m.log := by
    rw [requestIDs, requestIDs, hown]
  refine ⟨fun g => ?_, ?_, fun g hg => ?_⟩
  · rw [hids]
    exact h.ids g
  · rw [hids, hlineage, hid]
    exact h.next
  · rw [hids]
    exact h.fresh g (hlineage ▸ hg)

/-- A request takes the Message ID the counter stands at. -/
theorem Machine.Counts.ask (h : m.Counts first) {raw : Bytes}
    (hlineage : lineage m'.log = lineage m.log)
    (hown : ownRequests m'.log = ((lineage m.log, m.messageID), raw) :: ownRequests m.log)
    (hid : m'.messageID = m.messageID + 1) : m'.Counts first := by
  have hcur : requestIDs (lineage m.log) m'.log = m.messageID :: requestIDs (lineage m.log) m.log := by
    rw [requestIDs, hown, List.filter_cons_of_pos (by simp)]
    rfl
  have hother (g : Lineage) (hg : lineage m.log ≠ g) : requestIDs g m'.log = requestIDs g m.log := by
    rw [requestIDs, hown, List.filter_cons_of_neg (by simpa using hg)]
    rfl
  refine ⟨fun g => ?_, ?_, fun g hg => ?_⟩
  · by_cases hg : lineage m.log = g
    · subst hg
      rw [hcur]
      exact ⟨h.next, h.ids _⟩
    · rw [hother g hg]
      exact h.ids g
  · rw [hlineage, hcur, hid, h.next, List.length_cons, UInt32.ofNat_add, UInt32.add_assoc]
    rfl
  · rw [hlineage] at hg
    rw [hother g fun heq => (heq ▸ hg).ne rfl]
    exact h.fresh g hg

/-- A new IKE SA starts at 0. -/
theorem Machine.Counts.cutover (h : m.Counts first) {role : Role} {msgID : UInt32}
    (hlineage : lineage m'.log = (role, msgID) :: lineage m.log)
    (hown : ownRequests m'.log = ownRequests m.log) (hid : m'.messageID = 0) : m'.Counts first := by
  have hids (g : Lineage) : requestIDs g m'.log = requestIDs g m.log := by
    rw [requestIDs, requestIDs, hown]
  refine ⟨fun g => ?_, ?_, fun g hg => ?_⟩
  · rw [hids]
    exact h.ids g
  · rw [hids, hlineage, hid, h.fresh _ (Nat.lt_succ_self _)]
    rfl
  · rw [hlineage] at hg
    rw [hids]
    exact h.fresh g (Nat.lt_of_succ_lt hg)

theorem Machine.Counts.move (h : m.Counts first) (hmove : Move c r m m') : m'.Counts first := by
  cases hmove with
  | @request kind =>
      cases kind <;> exact h.ask rfl rfl rfl
  | notice => exact h.ask rfl rfl rfl
  | completeIKE => exact h.cutover rfl rfl rfl
  | acceptIKE => exact h.cutover rfl rfl rfl
  | _ => exact h.congr rfl rfl rfl

end

theorem Consecutive.lt {first : UInt32} {ids : List UInt32} (h : Consecutive first ids) {id : UInt32}
    (hmem : id ∈ ids) : ∃ n < ids.length, id = first + UInt32.ofNat n := by
  induction ids with
  | nil => cases hmem
  | cons id' ids ih =>
      rcases List.mem_cons.mp hmem with heq | hmem
      · exact ⟨ids.length, Nat.lt_succ_self _, heq.trans h.1⟩
      · obtain ⟨n, hn, heq⟩ := ih h.2 hmem
        exact ⟨n, Nat.lt_succ_of_lt hn, heq⟩

/-- Numbers that count up differ until the counter wraps. -/
theorem Consecutive.nodup {first : UInt32} {ids : List UInt32} (h : Consecutive first ids)
    (hlen : ids.length < 2 ^ 32) : ids.Nodup := by
  induction ids with
  | nil => exact List.nodup_nil
  | cons id ids ih =>
      have hlen' : ids.length < 2 ^ 32 := Nat.lt_of_succ_lt hlen
      refine List.nodup_cons.mpr ⟨fun hmem => ?_, ih h.2 hlen'⟩
      obtain ⟨n, hn, heq⟩ := h.2.lt hmem
      have hsame : UInt32.ofNat ids.length = UInt32.ofNat n :=
        (UInt32.add_right_inj first).mp (h.1.symm.trans heq)
      have hval := congrArg UInt32.toNat hsame
      rw [UInt32.toNat_ofNat_of_lt' hlen', UInt32.toNat_ofNat_of_lt' (hn.trans hlen')] at hval
      exact hn.ne hval.symm

/-- Keys differ if those with the same first part do. -/
theorem nodup_of_fibres {α β : Type} [DecidableEq α] {keys : List (α × β)}
    (h : ∀ a, ((keys.filter fun k => k.1 = a).map Prod.snd).Nodup) : keys.Nodup := by
  induction keys with
  | nil => exact List.nodup_nil
  | cons k keys ih =>
      refine List.nodup_cons.mpr ⟨fun hmem => ?_, ih fun a => (h a).sublist ?_⟩
      · have hk := h k.1
        rw [List.filter_cons_of_pos (by simp), List.map_cons, List.nodup_cons] at hk
        exact hk.1 (List.mem_map_of_mem (List.mem_filter.mpr ⟨hmem, by simp⟩))
      · exact ((List.sublist_cons_self k keys).filter _).map _

theorem nodup_requests {log : List Event} {counter : UInt32}
    (hids : ∀ g, Consecutive (firstID counter g) (requestIDs g log))
    (hfew : ∀ g, (requestIDs g log).length < 2 ^ 32) :
    ((ownRequests log).map Prod.fst).Nodup := by
  refine nodup_of_fibres fun g => ?_
  have heq : (((ownRequests log).map Prod.fst).filter fun k => k.1 = g).map Prod.snd =
      requestIDs g log := by
    rw [List.filter_map, List.map_map]
    rfl
  rw [heq]
  exact (hids g).nodup (hfew g)

/-! ## Repetitions -/

/-- The requests of ours in the order they were made. -/
def made (log : List Event) : List (RequestKey × Bytes) := (ownRequests log).reverse

/-- `is` tells for every repetition in the log, newest first, which request it repeats,
by its place among the requests.  A request is repeated with its Message ID and its
bytes. -/
inductive Repeats : List Event → List Nat → Prop
  | nil : Repeats [] []
  | again {log : List Event} {is : List Nat} {i : Nat} {g : Lineage} {msgID : UInt32} {raw : Bytes}
      (slot : Slot) (h : Repeats log is) (hi : (made log)[i]? = some ((g, msgID), raw)) :
      Repeats (.resent slot msgID raw :: log) (i :: is)
  | other {e : Event} {log : List Event} {is : List Nat} (h : Repeats log is)
      (he : ∀ slot msgID raw, e ≠ .resent slot msgID raw) : Repeats (e :: log) is

theorem made_cons (e : Event) (log : List Event) : made log <+: made (e :: log) := by
  cases e with
  | requested msgID raw idle =>
      rw [made, made, ownRequests, List.reverse_cons]
      exact List.prefix_append _ _
  | _ => exact List.prefix_rfl

theorem getElem?_of_prefix {α : Type} {l l' : List α} {i : Nat} {a : α} (h : l <+: l')
    (hi : l[i]? = some a) : l'[i]? = some a := by
  obtain ⟨rest, rfl⟩ := h
  obtain ⟨hlt, -⟩ := List.getElem?_eq_some_iff.mp hi
  rwa [List.getElem?_append_left hlt]

/-- What is repeated was made. -/
theorem Repeats.lt {log : List Event} {is : List Nat} (h : Repeats log is) :
    ∀ i ∈ is, i < (made log).length := by
  induction h with
  | nil => nofun
  | @again log is i g msgID raw slot h hi ih =>
      intro k hk
      rcases List.mem_cons.mp hk with rfl | hk
      · exact (List.getElem?_eq_some_iff.mp hi).1
      · exact ih k hk
  | @other e log is h he ih =>
      exact fun k hk => Nat.lt_of_lt_of_le (ih k hk) (made_cons e log).length_le

/-- The exchange, if there is one, is that of the request at the place `i`, which was
repeated less often than it was tried. -/
def Tracks (tries : Int) (log : List Event) (is : List Nat) (o : Option PendingExchange) (i : Nat) :
    Prop :=
  ∀ p, o = some p → (∃ g, (made log)[i]? = some ((g, p.msgID), p.raw)) ∧
    is.count i < p.attempts ∧ p.attempts ≤ tries

/-- The most often a request may be tried. -/
def Session.mostTries (s : Session) : Int := max s.retransmitTries fastDPDTries

/-- No request was repeated too often, and the two that may be repeated are not the
same. -/
structure Bounded (tries : Int) (d : Drive) : Prop where
  limit : d.s.mostTries = tries
  repeats : ∃ is i j, Repeats d.log is ∧ (∀ k, (is.count k : Int) < tries) ∧
    Tracks tries d.log is d.s.pending i ∧ Tracks tries d.log is d.s.oldIKEDelete j ∧
    (d.s.pending.isSome → d.s.oldIKEDelete.isSome → i ≠ j)

section

variable {c : Crypto} {env : Env} {tries : Int} {d d' : Drive}

theorem Tracks.cons {log : List Event} {is : List Nat} {o : Option PendingExchange} {i : Nat}
    (h : Tracks tries log is o i) (e : Event) : Tracks tries (e :: log) is o i := by
  intro p hp
  obtain ⟨⟨g, hg⟩, hcount, htries⟩ := h p hp
  exact ⟨⟨g, getElem?_of_prefix (made_cons e log) hg⟩, hcount, htries⟩

/-- An event that repeats nothing. -/
theorem Bounded.log (h : Bounded tries d) {e : Event} (he : ∀ slot msgID raw, e ≠ .resent slot msgID raw) :
    Bounded tries { d with log := e :: d.log } := by
  obtain ⟨htries, is, i, j, hrepeats, hmost, hpending, hdelete, hne⟩ := h
  exact ⟨htries, is, i, j, hrepeats.other he, hmost, hpending.cons e, hdelete.cons e, hne⟩

/-- The exchanges stay, are hurried, or end. -/
theorem Bounded.session (h : Bounded tries d) {s' : Session} (hcfg : s'.cfg = d.s.cfg)
    (hp : ∀ p', s'.pending = some p' → ∃ p, d.s.pending = some p ∧ p'.msgID = p.msgID ∧
      p'.raw = p.raw ∧ p'.attempts = p.attempts)
    (ho : ∀ p, s'.oldIKEDelete = some p → d.s.oldIKEDelete = some p) :
    Bounded tries { d with s := s' } := by
  obtain ⟨htries, is, i, j, hrepeats, hmost, hpending, hdelete, hne⟩ := h
  refine ⟨?_, is, i, j, hrepeats, hmost, fun p' hp' => ?_, fun p hp => hdelete p (ho p hp), ?_⟩
  · rw [← htries]
    change max s'.retransmitTries _ = max d.s.retransmitTries _
    rw [Session.retransmitTries, Session.retransmitTries, hcfg]
  · obtain ⟨p, hp₀, hid, hraw, hattempts⟩ := hp p' hp'
    rw [hid, hraw, hattempts]
    exact hpending p hp₀
  · intro hsome hsome'
    obtain ⟨p', hp'⟩ := Option.isSome_iff_exists.mp hsome
    obtain ⟨q, hq⟩ := Option.isSome_iff_exists.mp hsome'
    obtain ⟨p, hp₀, -⟩ := hp p' hp'
    exact hne (by rw [hp₀]; rfl) (by rw [ho q hq]; rfl)

theorem Bounded.keep (h : Bounded tries d) {s' : Session} (hcfg : s'.cfg = d.s.cfg)
    (hp : s'.pending = d.s.pending) (ho : s'.oldIKEDelete = d.s.oldIKEDelete) :
    Bounded tries { d with s := s' } :=
  h.session hcfg (fun p hp' => ⟨p, hp ▸ hp', rfl, rfl, rfl⟩) fun _ ho' => ho ▸ ho'

theorem Bounded.of_eq (h : Bounded tries d) (hs : d'.s = d.s) (hlog : d'.log = d.log) :
    Bounded tries d' := by
  obtain ⟨htries, hrepeats⟩ := h
  constructor
  · rwa [hs]
  · rwa [hs, hlog]

theorem Bounded.encoded (h : Bounded tries d) {slot : Slot} {exchange : ExchangeType} {flags : Flags}
    {msgID : UInt32} {inner : Payloads} {res : Go Bytes × Drive}
    (hres : Encoded c slot exchange flags msgID inner d res) : Bounded tries res.2 := by
  cases hres with
  | failed e d' n n' hs hlog =>
      have hseq : Bounded tries { d with s := d.s.withSeq n n' } := h.keep rfl rfl rfl
      exact hseq.of_eq hs hlog
  | done raw d' n n' ctx hctx hraw hs hlog =>
      have hseq : Bounded tries { d with s := d.s.withSeq n n' } := h.keep rfl rfl rfl
      exact (hseq.log (e := .sealed slot ctx exchange flags msgID inner raw) nofun).of_eq hs hlog

theorem one_le_mostTries (s : Session) : 1 ≤ s.mostTries :=
  Int.le_trans (by decide) (Int.le_max_right s.retransmitTries fastDPDTries)

/-- A request that was just made has not been repeated. -/
theorem Repeats.tracks_new {log : List Event} {is : List Nat} (h : Repeats log is)
    {p : PendingExchange} {msgID : UInt32} {idle : Bool} (hid : p.msgID = msgID)
    (hp : p.attempts = 1) (htries : 1 ≤ tries) :
    Tracks tries (.requested msgID p.raw idle :: log) is (some p) (made log).length := by
  subst hid
  intro q hq
  cases hq
  have hcount : is.count (made log).length = 0 :=
    List.count_eq_zero.mpr fun hmem => (h.lt _ hmem).ne rfl
  refine ⟨⟨lineage log, ?_⟩, ?_, ?_⟩
  · rw [made, ownRequests, List.reverse_cons]
    exact List.getElem?_concat_length
  · rw [hcount, hp]
    exact Nat.one_pos
  · rw [hp]
    exact htries

theorem Tracks.lt {log : List Event} {is : List Nat} {o : Option PendingExchange} {i : Nat}
    (h : Tracks tries log is o i) (ho : o.isSome) : i < (made log).length := by
  obtain ⟨p, hp⟩ := Option.isSome_iff_exists.mp ho
  obtain ⟨⟨g, hg⟩, -⟩ := h p hp
  exact (List.getElem?_eq_some_iff.mp hg).1

/-- A repetition, which was allowed. -/
theorem Repeats.again_bounded {log : List Event} {is : List Nat} {i : Nat} {p : PendingExchange}
    (h : Repeats log is) (hmost : ∀ k, (is.count k : Int) < tries)
    (htracks : Tracks tries log is (some p) i) (hallowed : (p.attempts : Int) + 1 ≤ tries)
    (slot : Slot) (next : Time) :
    Repeats (.resent slot p.msgID p.raw :: log) (i :: is) ∧
      (∀ k, ((i :: is).count k : Int) < tries) ∧
      Tracks tries (.resent slot p.msgID p.raw :: log) (i :: is)
        (some { p with attempts := p.attempts + 1, nextRetransmit := next }) i := by
  obtain ⟨⟨g, hg⟩, hcount, -⟩ := htracks p rfl
  have hself : (i :: is).count i = is.count i + 1 := List.count_cons_self
  refine ⟨h.again slot hg, fun k => ?_, fun q hq => ?_⟩
  · by_cases hk : i = k
    · subst hk
      rw [hself]
      omega
    · rw [List.count_cons_of_ne hk]
      exact hmost k
  · cases hq
    refine ⟨⟨g, hg⟩, ?_, ?_⟩
    · rw [hself]
      exact Nat.succ_lt_succ hcount
    · push_cast
      exact hallowed

/-- Another exchange than the one that is repeated. -/
theorem Tracks.again {log : List Event} {is : List Nat} {o : Option PendingExchange} {i j : Nat}
    (h : Tracks tries log is o j) (hne : o.isSome → i ≠ j) (e : Event) :
    Tracks tries (e :: log) (i :: is) o j := by
  intro p hp
  obtain ⟨hmade, hcount, htries⟩ := h.cons e p hp
  rw [List.count_cons_of_ne (hne (by rw [hp]; rfl))]
  exact ⟨hmade, hcount, htries⟩

theorem Bounded.act (h : Bounded tries d) (hact : Act c env d d') : Bounded tries d' := by
  have hpos : 1 ≤ tries := h.limit ▸ one_le_mostTries d.s
  cases hact with
  | read | send => exact h.of_eq rfl rfl
  | encode => exact h.encoded (encoded_encodeIn ..)
  | encodeEmpty => exact h.encoded (encoded_encodeEmptyIn ..)
  | adopt p hraw hid hp hfirst =>
      subst hp
      obtain ⟨htries, is, i, j, hrepeats, hmost, hpending, hdelete, hne⟩ := h
      exact ⟨htries, is, (made d.log).length, j, hrepeats.other nofun, hmost,
        hrepeats.tracks_new hid hfirst hpos, hdelete.cons _, fun _ hsome => (hdelete.lt hsome).ne'⟩
  | retire p hraw hid hp hfirst =>
      subst hp
      obtain ⟨htries, is, i, j, hrepeats, hmost, hpending, hdelete, hne⟩ := h
      exact ⟨htries, is, i, (made d.log).length, hrepeats.other nofun, hmost, hpending.cons _,
        hrepeats.tracks_new hid hfirst hpos, fun hsome _ => (hpending.lt hsome).ne⟩
  | @part raw hraw =>
      have hnote := h.log (e := .requested d.s.messageID raw d.s.pending.isNone)
        nofun
      exact hnote.keep rfl rfl rfl
  | @again p next hp hallowed =>
      obtain ⟨htries, is, i, j, hrepeats, hmost, hpending, hdelete, hne⟩ := h
      rw [hp] at hpending hne
      have hlimit : (p.attempts : Int) + 1 ≤ tries := by
        rw [← htries]
        refine Int.le_trans (Int.not_lt.mp hallowed) ?_
        unfold Session.pendingTries
        split
        · exact Int.le_max_right _ _
        · exact Int.le_max_left _ _
      obtain ⟨hrepeats', hmost', htracks⟩ := hrepeats.again_bounded hmost hpending hlimit .cur next
      exact ⟨htries, i :: is, i, j, hrepeats', hmost', htracks,
        hdelete.again (fun hsome => hne rfl hsome) _, hne⟩
  | @againOld p next hp hallowed =>
      obtain ⟨htries, is, i, j, hrepeats, hmost, hpending, hdelete, hne⟩ := h
      rw [hp] at hdelete hne
      have hlimit : (p.attempts : Int) + 1 ≤ tries := by
        rw [← htries]
        exact Int.le_trans (Int.not_lt.mp hallowed) (Int.le_max_left _ _)
      obtain ⟨hrepeats', hmost', htracks⟩ := hrepeats.again_bounded hmost hdelete hlimit .old next
      exact ⟨htries, j :: is, i, j, hrepeats', hmost',
        hpending.again (fun hsome => (hne hsome rfl).symm) _, htracks, hne⟩
  | drop => exact h.session rfl nofun fun _ => id
  | dropOld => exact h.session rfl (fun p hp => ⟨p, hp, rfl, rfl, rfl⟩) nofun
  | @hurry p next hp =>
      refine h.session rfl (fun p' hp' => ⟨p, hp, ?_⟩) fun _ => id
      cases hp'
      exact ⟨rfl, rfl, rfl⟩
  | @record slot raw msgID hraw =>
      have hlog := h.log (e := .answered slot msgID raw) nofun
      cases slot <;> exact hlog.keep rfl rfl rfl
  | cutover role msgID new =>
      exact (h.log (e := .cutover role msgID new) nofun).keep rfl rfl rfl
  | expire => exact h.session rfl (fun p hp => ⟨p, hp, rfl, rfl, rfl⟩) nofun
  | tune hsame =>
      exact h.keep (congrArg Core.cfg hsame) (congrArg Core.pending hsame)
        (congrArg Core.oldIKEDelete hsame)
  | log he =>
      refine h.log fun slot msgID raw heq => ?_
      subst heq
      cases he

end

/-! ## Runs -/

theorem driverStart_core (env : Env) (s : Session) :
    (driverStart env { s }).2.s.core = s.core := by
  unfold driverStart
  rw [run_setSession_bind, run_session_bind, run_emit_bind]
  obtain ⟨t₁, d₁, hx₁, hs₁, -⟩ := jitteredDeadline_ok env _ _ _
  rw [Proc.bind_of_ok hx₁]
  obtain ⟨t₂, d₂, hx₂, hs₂, -⟩ := jitteredDeadline_ok env _ _ d₁
  rw [Proc.bind_of_ok hx₂]
  simp only [setSession, hs₂.trans hs₁]
  rfl

section

variable {c : Crypto} {env : Env} {s : Session} {ts : List Turn} {d : Drive} {fin : Bool}

theorem Machine.Fresh.counts {m : Machine} (h : m.Fresh) : m.Counts m.messageID := by
  obtain ⟨ctx, hlog, -⟩ := h.log
  have hids (g : Lineage) : requestIDs g m.log = [] := by
    rw [hlog]
    rfl
  refine ⟨fun g => ?_, ?_, fun g _ => hids g⟩
  · rw [hids]
    trivial
  · rw [hids, hlog]
    exact (UInt32.add_zero _).symm

theorem Machine.Fresh.noted {m : Machine} (h : m.Fresh) : Noted m.log ∧ NeverCrowded m.log := by
  obtain ⟨ctx, hlog, -⟩ := h.log
  rw [hlog]
  exact ⟨trivial, fun _ _ _ hmem => by simp at hmem⟩

/-- The rules of a run, which may end by itself. -/
def anyTurn (closing : Prop) : Rules where
  recv _ _ := True
  lost := True
  stale := True
  closing := closing

theorem admitted_anyTurn {closing : Prop} {input : Input} (h : input = .done → closing) :
    input.Admitted c env (anyTurn closing) d := by
  cases input with
  | datagram raw => exact fun _ _ _ _ => ⟨trivial, fun _ _ => trivial, fun _ => trivial⟩
  | tick => trivial
  | done => exact h rfl

theorem Reaches.keeps {d₀ : Drive} {I : Drive → Prop} (h : Reaches c d₀ ts d fin) (h₀ : I d₀)
    (hI : ∀ env d d', I d → Act c env d d' → I d') : I d := by
  induction h with
  | refl => exact h₀
  | @turn ts d d' fin env input _ hstep ih =>
      have hkept := driverStep_keeps (hI env) ih input
      rwa [hstep] at hkept

/-- Requests are made one at a time, the delete at the end of the session apart.  Their
Message IDs count up under each IKE SA, so no two requests have the same IKE SA and
Message ID.  A request is repeated as it is, and not more often than the configuration
says. -/
theorem request_window (hs : Established s) (hdelete : s.oldIKEDelete = none)
    (h : Reaches c (driverStart env { s }).2 ts d fin) :
    Noted d.log ∧ ((∀ t ∈ ts, t.input ≠ .done) → NeverCrowded d.log) ∧
    (∀ g, Consecutive (firstID s.messageID g) (requestIDs g d.log)) ∧
    ((∀ g, (requestIDs g d.log).length < 2 ^ 32) → ((ownRequests d.log).map Prod.fst).Nodup) ∧
    ∃ is, Repeats d.log is ∧ ∀ i, (is.count i : Int) ≤ s.retransmitTries ∧
      (is.count i + 1 ≤ s.retransmitTries ∨ is.count i + 1 ≤ fastDPDTries) := by
  have hcore := driverStart_core env s
  have hfresh : ((driverStart env { s }).2.view {}).Fresh := Starts.fresh ⟨env, s, hs, rfl⟩
  have hid : ((driverStart env { s }).2.view {}).messageID = s.messageID :=
    congrArg Core.messageID hcore
  obtain ⟨⟨hnoted, hcounts⟩, -⟩ := h.invariant (r := anyTurn True)
    (fun m => Noted m.log ∧ m.Counts s.messageID) ⟨hfresh.noted.1, hid ▸ hfresh.counts⟩
    hfresh.dataPlane (fun _ _ hm hmove => ⟨hm.1.move hmove, hm.2.move hmove⟩)
    fun t _ => admitted_anyTurn fun _ => trivial
  have hstart : Bounded s.mostTries (driverStart env { s }).2 := by
    obtain ⟨ctx, hlog, -⟩ := hfresh.log
    have hnone : (driverStart env { s }).2.s.pending = none :=
      (congrArg Core.pending hcore).trans hs.pending
    have hnone' : (driverStart env { s }).2.s.oldIKEDelete = none :=
      (congrArg Core.oldIKEDelete hcore).trans hdelete
    have hcfg : (driverStart env { s }).2.s.cfg = s.cfg := congrArg Core.cfg hcore
    have hrepeats : Repeats (driverStart env { s }).2.log [] := by
      rw [show (driverStart env { s }).2.log = [.established ctx] from hlog]
      exact .other .nil nofun
    refine ⟨?_, [], 0, 0, hrepeats, fun k => one_le_mostTries s, ?_, ?_, ?_⟩
    · rw [Session.mostTries, Session.retransmitTries, hcfg]
      rfl
    · rw [hnone]
      nofun
    · rw [hnone']
      nofun
    · rw [hnone]
      nofun
  obtain ⟨-, is, -, -, hrepeats, hmost, -⟩ := h.keeps hstart fun _ _ _ hd hact => hd.act hact
  refine ⟨hnoted, fun hts => ?_, hcounts.ids, nodup_requests hcounts.ids, is, hrepeats, fun i => ?_⟩
  · exact (h.invariant (r := anyTurn False) (fun m => NeverCrowded m.log) hfresh.noted.2
      hfresh.dataPlane (fun _ _ hm hmove => hm.move id hmove) fun t ht => admitted_anyTurn (hts t ht)).1
  · have hpos : 1 ≤ s.retransmitTries := by
      unfold Session.retransmitTries
      split
      · assumption
      · decide
    have hlt : (is.count i : Int) < max s.retransmitTries 2 := hmost i
    have htries : fastDPDTries = 2 := rfl
    omega

end

/-- The sample session is probed, and the probe repeated.  Then the peer replaces the IKE SA,
and the session is probed under the new one. -/
def sampleRekeyed : Drive :=
  ticking 70000000000 (receiving 34000000000 (fromResponder exchangeCreateChildSA 0 0 sampleIKERekey)
    (ticking 33000000002 (ticking 31000000001 (sampleStart .initiator))))

/-- Two requests, each with the first Message ID of its IKE SA, and one repetition. -/
theorem request_window_sample :
    (ownRequests sampleRekeyed.log).map Prod.fst = [([(.responder, 0)], 0), ([], 2)] ∧
      (∃ r ∈ ownRequests sampleRekeyed.log, Event.resent .cur r.1.2 r.2 ∈ sampleRekeyed.log) ∧
      NeverCrowded sampleRekeyed.log ∧
      ∃ is, Repeats sampleRekeyed.log is ∧
        ∀ i, (is.count i : Int) ≤ (sampleSession .initiator).retransmitTries := by
  have hgoes : goesOn [(31000000001, .tick), (33000000002, .tick),
      (34000000000, .datagram (fromResponder exchangeCreateChildSA 0 0 sampleIKERekey)),
      (70000000000, .tick)] (sampleStart .initiator) = true := by decide +kernel
  simp only [goesOn_cons] at hgoes
  obtain ⟨hprobe, hagain, hrekey, hlast, -⟩ := hgoes
  have hreach : Reaches Crypto.sample (sampleStart .initiator) _ sampleRekeyed false :=
    (((Reaches.refl.ticking hprobe).ticking hagain).receiving hrekey).ticking hlast
  obtain ⟨-, hidle, -, -, is, hrepeats, hcount⟩ :=
    request_window (established_sampleSession .initiator) rfl hreach
  obtain ⟨hrequests, hrepeated⟩ :
      (ownRequests sampleRekeyed.log).map Prod.fst = [([(.responder, 0)], 0), ([], 2)] ∧
        ∃ r ∈ ownRequests sampleRekeyed.log, Event.resent .cur r.1.2 r.2 ∈ sampleRekeyed.log := by
    decide +kernel
  exact ⟨hrequests, hrepeated, hidle (by simp), is, hrepeats, fun i => (hcount i).1⟩

end GoIpsec.Session
