import GoIpsec.Session.Datagrams

/-!
# The nonces of protected messages

An AEAD suite takes the IV of a message from the counter of the SA.  Whatever is encoded
uses up a value, also if nothing comes of it, and what is sent again is not encoded again.
So under one IKE SA an IV stands for one message, until the counter wraps.

The number of values an SA has used up is counted beside the session (`Drive.spent`).  The
counter of an SA is that number (`Metered`), and a cutover begins with a counter of its own.
-/

set_option linter.dupNamespace false

namespace GoIpsec.Session

open Golang Ikemsg Ikesa

/-- Where the counters of the two IKE SAs stand, and what they have given out. -/
structure Metered (d : Drive) : Prop where
  seq : ∀ slot ctx, d.s.ctx slot = some ctx →
    ctx.sa.skSeq = UInt64.ofNat (d.spent.count ((lineage d.log).at slot))
  old : d.s.oldIKE.isSome = true → lineage d.log ≠ []
  reached : ∀ g ∈ d.spent, g.length ≤ (lineage d.log).length
  rising : ∀ g, Rising (d.spent.count g) (counters g d.log)

/-- Every SA that was cut over to had not encrypted anything. -/
def NewSAs (log : List Event) : Prop :=
  ∀ role msgID new, Event.cutover role msgID new ∈ log → new.sa.skSeq = 0

theorem counters_sealed (g : Lineage) (slot : Slot) (ctx : IkeCtx) (exchange : ExchangeType)
    (flags : Flags) (msgID : UInt32) (inner : Payloads) (raw : Bytes) (log : List Event) :
    counters g (.sealed slot ctx exchange flags msgID inner raw :: log) =
      if (lineage log).at slot = g ∧ ctx.sa.suite.aead = true then ctx.sa.skSeq :: counters g log
      else counters g log := by
  unfold counters
  rw [encodings, List.filter_cons]
  by_cases h : (lineage log).at slot = g ∧ ctx.sa.suite.aead = true
  · rw [if_pos (decide_eq_true h), if_pos h, List.map_cons]
  · rw [if_neg (by simpa using h), if_neg h]

section

variable {c : Crypto} {env : Env} {d d' : Drive} {slot : Slot}

theorem Notes.lineage_eq {ctx : IkeCtx} {log log' : List Event} (h : Notes slot ctx log log') :
    lineage log' = lineage log := by
  rcases h with rfl | ⟨exchange, flags, msgID, inner, raw, rfl⟩ <;> rfl

theorem ctx_setSA {s : Session} {ctx : IkeCtx} {sa : IKESA} (hctx : s.ctx slot = some ctx) :
    (s.setSA slot sa).ctx slot = some { ctx with sa } := by
  cases slot with
  | cur =>
      cases hctx
      rfl
  | old =>
      change s.oldIKE = some ctx at hctx
      change s.oldIKE.map (fun o => { o with sa }) = _
      rw [hctx]
      rfl

theorem ctx_setSA_of_ne {s : Session} {slot' : Slot} {sa : IKESA} (h : slot' ≠ slot) :
    (s.setSA slot sa).ctx slot' = s.ctx slot' := by
  cases slot <;> cases slot'
  · exact absurd rfl h
  · rfl
  · rfl
  · exact absurd rfl h

namespace Metered

/-- A step that encodes nothing and cuts over to nothing. -/
theorem congr (h : Metered d) (hctx : ∀ slot, d'.s.ctx slot = d.s.ctx slot)
    (hlineage : lineage d'.log = lineage d.log) (hencodings : encodings d'.log = encodings d.log)
    (hspent : d'.spent = d.spent) : Metered d' where
  seq slot ctx hslot := by
    rw [hspent, hlineage]
    exact h.seq slot ctx ((hctx slot).symm.trans hslot)
  old hold := by
    rw [hlineage]
    exact h.old ((congrArg Option.isSome (hctx .old)).symm.trans hold)
  reached := by
    rw [hspent, hlineage]
    exact h.reached
  rising g := by
    unfold counters
    rw [hspent, hencodings]
    exact h.rising g

/-- Two IKE SAs that can be used at the same time differ. -/
theorem at_ne (h : Metered d) {slot' : Slot} {ctx ctx' : IkeCtx} (hctx : d.s.ctx slot = some ctx)
    (hctx' : d.s.ctx slot' = some ctx') (hne : slot' ≠ slot) :
    (lineage d.log).at slot' ≠ (lineage d.log).at slot := by
  have hsome (ctx : IkeCtx) (hctx : d.s.ctx .old = some ctx) : lineage d.log ≠ [] :=
    h.old (by rw [show d.s.oldIKE = some ctx from hctx]; rfl)
  have htail (hne : lineage d.log ≠ []) : (lineage d.log).tail ≠ lineage d.log := by
    intro heq
    have hlen := congrArg List.length heq
    have hpos := List.length_pos_of_ne_nil hne
    rw [List.length_tail] at hlen
    omega
  cases slot <;> cases slot'
  · exact absurd rfl hne
  · exact htail (hsome ctx' hctx')
  · exact (htail (hsome ctx hctx)).symm
  · exact absurd rfl hne

theorem spends (h : Metered d) (hspends : Spends slot d d') : Metered d' := by
  cases hspends with
  | none => exact h
  | @kept ctx log hctx hlog haead =>
      -- only a suite without a counter logs a message and keeps the SA as it is
      rcases hlog with rfl | ⟨exchange, flags, msgID, inner, raw, rfl⟩
      · exact h.congr (fun _ => rfl) rfl rfl rfl
      · refine ⟨h.seq, h.old, h.reached, fun g => ?_⟩
        dsimp only
        rw [counters_sealed, if_neg fun hg => by simpa using haead hg.2]
        exact h.rising g
  | @used ctx log hctx hlog haead =>
      have hlineage : lineage log = lineage d.log := hlog.lineage_eq
      have hseq := h.seq slot ctx hctx
      refine ⟨fun slot' ctx' hctx' => ?_, fun hold => ?_, fun g hg => ?_, fun g => ?_⟩
      · dsimp only at hctx' ⊢
        rw [hlineage]
        by_cases hslot : slot' = slot
        · subst hslot
          rw [ctx_setSA hctx, Option.some.injEq] at hctx'
          rw [List.count_cons_self, ← hctx']
          change ctx.sa.skSeq + 1 = _
          rw [hseq]
          simp
        · rw [ctx_setSA_of_ne hslot] at hctx'
          rw [List.count_cons_of_ne (h.at_ne hctx hctx' hslot).symm]
          exact h.seq slot' ctx' hctx'
      · dsimp only at hold ⊢
        rw [hlineage]
        refine h.old ?_
        cases slot with
        | cur => exact hold
        | old => rwa [Session.setSA, Option.isSome_map] at hold
      · dsimp only at hg ⊢
        rw [hlineage]
        rcases List.mem_cons.mp hg with rfl | hg
        · cases slot with
          | cur => exact Nat.le_refl _
          | old => exact (List.length_tail ..).trans_le (Nat.sub_le _ _)
        · exact h.reached g hg
      · dsimp only
        have hmono : Rising (List.count g ((lineage d.log).at slot :: d.spent)) (counters g d.log) :=
          (h.rising g).mono List.count_le_count_cons
        rcases hlog with rfl | ⟨exchange, flags, msgID, inner, raw, rfl⟩
        · exact hmono
        · rw [counters_sealed]
          by_cases hg : (lineage d.log).at slot = g
          · subst hg
            rw [if_pos ⟨rfl, haead⟩, List.count_cons_self, hseq]
            exact (h.rising _).cons
          · rw [if_neg fun hboth => hg hboth.1]
            exact hmono

theorem cutover (h : Metered d) {role : Role} {msgID : UInt32} {new : IkeCtx} {s : Session}
    (hnew : new.sa.skSeq = 0) (hcur : s.ctx .cur = some new) (hold : s.oldIKE = d.s.ctx .cur) :
    Metered { d with s, log := .cutover role msgID new :: d.log } where
  seq slot ctx hctx := by
    change _ = UInt64.ofNat (d.spent.count (Lineage.at ((role, msgID) :: lineage d.log) slot))
    cases slot with
    | cur =>
        have hfresh : d.spent.count ((role, msgID) :: lineage d.log) = 0 := by
          refine List.count_eq_zero.mpr fun hmem => ?_
          have hlen := h.reached _ hmem
          rw [List.length_cons] at hlen
          omega
        cases hcur.symm.trans hctx
        rw [Lineage.at, hfresh, hnew]
        rfl
    | old => exact h.seq .cur ctx (hold ▸ hctx)
  old _ := List.cons_ne_nil _ _
  reached g hg := Nat.le_succ_of_le (h.reached g hg)
  rising := h.rising

theorem act (h : Metered d) (hact : Act c env d d') (hnew : NewSAs d'.log) : Metered d' := by
  cases hact with
  | encode slot exchange flags msgID inner => exact h.spends (spends_encodeIn ..)
  | encodeEmpty slot exchange flags msgID => exact h.spends (spends_encodeEmptyIn ..)
  | cutover role msgID new grace installed =>
      exact h.cutover (hnew role msgID new List.mem_cons_self) rfl rfl
  | expire =>
      refine ⟨fun slot ctx hctx => ?_, nofun, h.reached, h.rising⟩
      cases slot with
      | cur => exact h.seq .cur ctx hctx
      | old => cases hctx
  | @tune s' hsame =>
      refine h.congr (fun slot => ?_) rfl rfl rfl
      have hsa : s'.ikeSA = d.s.ikeSA := congrArg Core.ikeSA hsame
      have hspii : s'.initiatorSPI = d.s.initiatorSPI := congrArg Core.initiatorSPI hsame
      have hspir : s'.responderSPI = d.s.responderSPI := congrArg Core.responderSPI hsame
      cases slot with
      | cur => simp only [Session.ctx, hsa, hspii, hspir]
      | old => exact congrArg Core.oldIKE hsame
  | @log e he =>
      cases e with
      | sealed | cutover => cases he
      | _ => exact h.congr (fun _ => rfl) rfl rfl rfl
  | @record slot raw msgID hraw =>
      refine h.congr (fun slot' => ?_) rfl rfl rfl
      cases slot <;> cases slot' <;> rfl
  | read | send | part | drop | dropOld | again | againOld | hurry | adopt | retire =>
      exact h.congr (fun slot => by cases slot <;> rfl) rfl rfl rfl

end Metered

/-- The log only grows. -/
theorem Act.log_subset (h : Act c env d d') : d.log ⊆ d'.log := by
  have hspends (slot : Slot) (d' : Drive) (h : Spends slot d d') : d.log ⊆ d'.log := by
    have hnotes {ctx : IkeCtx} {log : List Event} (hlog : Notes slot ctx d.log log) : d.log ⊆ log := by
      rcases hlog with rfl | ⟨exchange, flags, msgID, inner, raw, rfl⟩
      · exact List.Subset.refl _
      · exact List.subset_cons_self _ _
    cases h with
    | none => exact List.Subset.refl _
    | kept _ hlog _ => exact hnotes hlog
    | used _ hlog _ => exact hnotes hlog
  cases h with
  | encode slot exchange flags msgID inner => exact hspends slot _ (spends_encodeIn ..)
  | encodeEmpty slot exchange flags msgID => exact hspends slot _ (spends_encodeEmptyIn ..)
  | adopt | retire | part | again | againOld | record | cutover | log =>
      exact List.subset_cons_self _ _
  | read | send | drop | dropOld | hurry | expire | tune => exact List.Subset.refl _

end

/-! ## IVs -/

/-- The IV of a message under an AEAD suite: the eight octets behind the two headers. -/
def skIV (raw : Bytes) : Bytes := (raw.drop 32).take 8

theorem Seals.skIV {c : Crypto} {ctx : IkeCtx} {exchange : ExchangeType} {flags : Flags}
    {msgID : UInt32} {inner : Payloads} {raw : Bytes} (hctx : ctx.Proper)
    (haead : ctx.sa.suite.aead = true) (h : Seals c ctx exchange flags msgID inner raw) :
    Session.skIV raw = putUint64 (ctx.sa.skSeq + 1) := by
  obtain ⟨rand, sa', henc⟩ := h
  obtain ⟨pt, iv, pad, -, hiv, -, -, n, hn, hlen, rfl⟩ := encodeSKWith_eq_ok hctx.wf henc
  obtain ⟨kind, hst, -⟩ := hctx.wf.aead_some haead
  rw [hiv.2 haead, Session.skIV, List.drop_left' (length_skPrefix _ _ _)]
  simp only [IKESA.sealBody, hst]
  exact List.take_left' (length_putUint64 _)

theorem putUint64_injective {a b : UInt64} (h : putUint64 a = putUint64 b) : a = b := by
  have hread := congrArg uint64 h
  rwa [uint64_putUint64, uint64_putUint64, Except.ok.injEq] at hread

section

variable {c : Crypto} {l : Life}

/-- The messages of a handshake are under the first IKE SA. -/
theorem sa_of_mem_encodings {d : Dialing} {q : Encoding} (h : q ∈ encodings d.life.log) : q.sa = [] := by
  unfold Dialing.life at h
  induction hlog : d.log generalizing d with
  | nil =>
      rw [hlog] at h
      cases h
  | cons e log ih =>
      rw [hlog] at h
      have hrest (h : q ∈ encodings (log.filterMap Moment.event?)) : q.sa = [] :=
        ih (d := { d with log }) h rfl
      cases e with
      | sealed ctx exchange flags msgID inner raw =>
          rcases List.mem_cons.mp h with rfl | h
          · exact lineage_life { d with log }
          · exact hrest h
      | _ => exact hrest h

theorem Talks.counters {d : Dialing} (h : Talks c d) (g : Lineage) :
    Rising (d.life.spent.count g) (counters g d.life.log) := by
  by_cases hg : g = []
  · subst hg
    change Rising ((List.replicate d.spent []).count []) _
    rw [List.count_replicate_self]
    exact h.rising
  · have hnone : Session.counters g d.life.log = [] := by
      rw [Session.counters, List.map_eq_nil_iff, List.filter_eq_nil_iff]
      intro q hq
      simp only [sa_of_mem_encodings hq, Ne.symm hg, false_and, decide_false, Bool.false_eq_true,
        not_false_eq_true]
    rw [hnone]
    exact .nil _

theorem Opening.counters {d : Dialing} (h : Opening d) (g : Lineage) :
    Rising (d.life.spent.count g) (counters g d.life.log) := by
  have hlog : d.life.log = [] := by rw [Dialing.life, h.log]; rfl
  rw [hlog]
  exact .nil _

theorem Begins.metered {dl : Dialing} {ike : IKESA} {d : Drive} (h : Begins c dl ike d) :
    Metered d := by
  obtain ⟨ctx, hlog⟩ := h.log
  have hlineage : lineage d.log = [] := by
    rw [hlog]
    exact lineage_life dl
  refine ⟨fun slot ctx hctx => ?_, ?_, fun g hg => ?_, fun g => ?_⟩
  · cases slot with
    | cur =>
        obtain ⟨hcur, -, hseq⟩ := h.ctx
        cases hcur.symm.trans hctx
        rw [hlineage, h.spent, Lineage.at, List.count_replicate_self]
        exact hseq
    | old =>
        rw [Session.ctx, h.oldIKE] at hctx
        cases hctx
  · intro hold
    rw [h.oldIKE] at hold
    cases hold
  · rw [h.spent] at hg
    rw [List.eq_of_mem_replicate hg]
    exact Nat.zero_le _
  · rw [h.spent, hlog]
    exact h.talks.counters g

/-- What the counters have given out in a life. -/
theorem Lives.rising (h : Lives c l) (g : Lineage) : Rising (l.spent.count g) (counters g l.log) := by
  have hlog := h.sound.log
  cases h with
  | dialed w cfg creds inbox =>
      have hend := ((dialSession_leads (c := c) (w := w) cfg creds inbox).mono fun _ _ => .inr).snd
      exact hend.elim (fun h => h.counters g) fun h => h.counters g
  | @driven w cfg creds inbox dl ike env ts d fin childPFS hdial hike hrun =>
      have hbegins := begins_driverStart env childPFS hdial hike
      -- an action does not tell that the SA of a cutover is new, the log at the end does
      have hmetered := hrun.keeps (I := fun d => NewSAs d.log → Metered d)
        (fun _ => hbegins.metered) fun _ _ _ hd hact hnew =>
          (hd fun role msgID new hmem => hnew role msgID new (hact.log_subset hmem)).act hact hnew
      exact (hmetered fun role msgID new hmem => (hlog _ hmem).2).rising g

/-- Under one IKE SA with an AEAD suite, an IV stands for one message. -/
theorem encoding_of_skIV (h : Lives c l) {q q' : Encoding} (hq : q ∈ encodings l.log)
    (hq' : q' ∈ encodings l.log) (hsa : q.sa = q'.sa) (haead : q.ctx.sa.suite.aead = true)
    (haead' : q'.ctx.sa.suite.aead = true) (hfew : l.spent.count q.sa < 2 ^ 64)
    (hiv : skIV q.raw = skIV q'.raw) : q = q' := by
  have hseals (q : Encoding) (hq : q ∈ encodings l.log) (haead : q.ctx.sa.suite.aead = true) :
      skIV q.raw = putUint64 (q.ctx.sa.skSeq + 1) := by
    obtain ⟨slot, hmem⟩ := mem_of_mem_encodings hq
    obtain ⟨hproper, hraw⟩ := h.sound.log _ hmem
    exact hraw.skIV hproper haead
  have hseq : q.ctx.sa.skSeq = q'.ctx.sa.skSeq := by
    rw [hseals q hq haead, hseals q' hq' haead'] at hiv
    exact (UInt64.add_left_inj 1).mp (putUint64_injective hiv)
  have hnodup := (h.rising q.sa).nodup (Nat.le_of_lt hfew)
  refine List.inj_on_of_nodup_map hnodup ?_ ?_ hseq
  · exact List.mem_filter.mpr ⟨hq, by simp [haead]⟩
  · exact List.mem_filter.mpr ⟨hq', by simp [hsa, haead']⟩

/-- All that a session transmits after IKE_SA_INIT was encoded once.  Two datagrams under
one IKE SA with an AEAD suite and with the same IV are the same, and so are the messages in
them, as long as fewer than 2⁶⁴ values of the counter of that SA were used up. -/
theorem sk_ivs_unique (h : Lives c l) :
    (∀ b ∈ l.sent, IsSAInit b ∨ ∃ q ∈ encodings l.log, b = l.frame q.raw) ∧
    ∀ q ∈ encodings l.log, ∀ q' ∈ encodings l.log, q.sa = q'.sa → q.ctx.sa.suite.aead = true →
      q'.ctx.sa.suite.aead = true → l.spent.count q.sa < 2 ^ 64 → skIV q.raw = skIV q'.raw →
      q = q' ∧ ∀ b ∈ l.sent, ∀ b' ∈ l.sent, b = l.frame q.raw → b' = l.frame q'.raw → b = b' := by
  refine ⟨fun b hb => ?_, fun q hq q' hq' hsa haead haead' hfew hiv => ?_⟩
  · refine (h.sound.sent b hb).imp_right ?_
    rintro ⟨raw, hraw, rfl⟩
    obtain ⟨q, hq, rfl⟩ := hraw.exists_encoding
    exact ⟨q, hq, rfl⟩
  · have hsame := encoding_of_skIV h hq hq' hsa haead haead' hfew hiv
    refine ⟨hsame, fun b _ b' _ hb hb' => ?_⟩
    rw [hb, hb', hsame]

end

/-- Four messages under an AEAD suite, with the IVs from 1 to 4, of which one was sent twice, and
one under the IKE SA that took its place, with the IV 1 again. -/
theorem sk_ivs_unique_sample :
    Lives .sample sampleRenewed.life ∧
      (encodings sampleRenewed.life.log).map (fun q => (q.sa, skIV q.raw)) =
        [([(.responder, 1)], putUint64 1), ([], putUint64 4), ([], putUint64 3), ([], putUint64 2),
          ([], putUint64 1)] ∧
      (∃ q ∈ encodings sampleRenewed.life.log,
        sampleRenewed.life.sent.count (sampleRenewed.life.frame q.raw) = 2) ∧
      ∀ q ∈ encodings sampleRenewed.life.log, ∀ q' ∈ encodings sampleRenewed.life.log,
        q.sa = q'.sa → skIV q.raw = skIV q'.raw → q = q' := by
  have h := lives_sampleRenewed
  obtain ⟨hall, hivs, htwice⟩ : (∀ q ∈ encodings sampleRenewed.life.log, q.ctx.sa.suite.aead = true ∧
        sampleRenewed.life.spent.count q.sa < 2 ^ 64) ∧
      (encodings sampleRenewed.life.log).map (fun q => (q.sa, skIV q.raw)) =
        [([(.responder, 1)], putUint64 1), ([], putUint64 4), ([], putUint64 3), ([], putUint64 2),
          ([], putUint64 1)] ∧
      ∃ q ∈ encodings sampleRenewed.life.log,
        sampleRenewed.life.sent.count (sampleRenewed.life.frame q.raw) = 2 := by decide +kernel
  refine ⟨h, hivs, htwice, fun q hq q' hq' hsa hiv => ?_⟩
  obtain ⟨haead, hfew⟩ := hall q hq
  exact ((sk_ivs_unique h).2 q hq q' hq' hsa haead (hall q' hq').1 hfew hiv).1

end GoIpsec.Session
