import GoIpsec.Session.Counterpart
import GoIpsec.Session.Transcript

/-!
# Two endpoints: messages that can be read back

Every message that an endpoint encodes in the control loop is made of payloads that can be
read back, if they could be written at all.  An answer echoes selectors of the request, so
this rests on the requests of the other endpoint being legible too.
-/

set_option linter.dupNamespace false

namespace GoIpsec.Ikemsg

open Golang

/-! ## Selectors that were read -/

theorem parseSelector_wf {b rest : Bytes} {ts : TrafficSelector} (h : parseSelector b = .ok (ts, rest)) :
    ts.WF := by
  unfold parseSelector at h
  split at h
  · cases h
  obtain ⟨tsType, -, h⟩ := bind_eq_ok.mp h
  dsimp only at h
  split at h
  · cases h
  rename_i halen
  simp only [bind_eq_ok] at h
  obtain ⟨_, -, selLen, -, h⟩ := h
  split at h
  · cases h
  split at h
  · cases h
  simp only [bind_eq_ok, pure_eq_ok, Except.ok.injEq, Prod.mk.injEq] at h
  obtain ⟨_, -, _, -, _, -, _, -, _, -, startAddr, hstart, endAddr, hend, _, -, rfl, -⟩ := h
  refine ⟨?_, ?_, ?_⟩
  · unfold addrLen at halen
    split at halen
    · exact .inl ‹_›
    split at halen
    · exact .inr ‹_›
    · exact (halen rfl).elim
  · have := length_slice hstart
    dsimp only
    omega
  · have := length_slice hend
    dsimp only
    omega

theorem parseTSBody_wf {body : Bytes} {selectors : List TrafficSelector}
    (h : parseTSBody body = .ok selectors) : selectorsWF selectors := by
  unfold parseTSBody at h
  split at h
  · cases h
  obtain ⟨count, -, h⟩ := bind_eq_ok.mp h
  dsimp only at h
  split at h
  · cases h
  rename_i hcount
  simp only [bind_eq_ok] at h
  obtain ⟨_, -, ⟨out, rest⟩, hout, h⟩ := h
  split at h
  · cases h
  cases h
  dsimp only at hout ⊢
  obtain ⟨hlen, hall⟩ := readN_forall (fun _ _ _ => parseSelector_wf) hout
  have hlt := count.toNat_lt
  exact ⟨by omega, by omega, hall⟩

/-- The selectors of a payload are well-formed. -/
def Payload.SelectorsWF : Payload → Prop
  | .tsi p => selectorsWF p.selectors
  | .tsr p => selectorsWF p.selectors
  | _ => True

theorem TSiPayload.unmarshalBody_wf {body : Bytes} {ts : TSiPayload}
    (h : TSiPayload.unmarshalBody body = .ok ts) : selectorsWF ts.selectors := by
  obtain ⟨selectors, hselectors, h⟩ := bind_eq_ok.mp h
  cases h
  exact parseTSBody_wf hselectors

theorem TSrPayload.unmarshalBody_wf {body : Bytes} {ts : TSrPayload}
    (h : TSrPayload.unmarshalBody body = .ok ts) : selectorsWF ts.selectors := by
  obtain ⟨selectors, hselectors, h⟩ := bind_eq_ok.mp h
  cases h
  exact parseTSBody_wf hselectors

theorem newPayload_selectorsWF {t following : PayloadType} {u : Bytes → Go Payload} {body : Bytes}
    {p : Payload} (hu : newPayload t following = some u) (h : u body = .ok p) : p.SelectorsWF := by
  have hstep {k : PayloadType} {f : Bytes → Go Payload} {rest : Option (Bytes → Go Payload)}
      (hf : f body = .ok p → p.SelectorsWF) (hu : (if t = k then some f else rest) = some u)
      (hrest : rest = some u → p.SelectorsWF) : p.SelectorsWF := by
    split at hu
    · cases hu
      exact hf h
    · exact hrest hu
  have hmap {α : Type} {k : α → Payload} {x : Go α} (hk : ∀ a, x = .ok a → (k a).SelectorsWF) :
      k <$> x = .ok p → p.SelectorsWF := by
    intro hx
    cases x with
    | error e => cases hx
    | ok a =>
        cases hx
        exact hk a rfl
  -- only the two payloads of selectors have anything to show
  iterate 11 refine hstep (hmap (by exact fun _ _ => trivial)) hu fun hu => ?_
  refine hstep (hmap (by exact fun _ => TSiPayload.unmarshalBody_wf)) hu fun hu => ?_
  refine hstep (hmap (by exact fun _ => TSrPayload.unmarshalBody_wf)) hu fun hu => ?_
  iterate 2 refine hstep (hmap (by exact fun _ _ => trivial)) hu fun hu => ?_
  exact hstep (hmap (by exact fun _ _ => trivial)) hu nofun

theorem parsePayload_selectorsWF {next following : PayloadType} {body rest : Bytes} {ps : Payloads}
    (h : parsePayload next body = .ok (ps, following, rest)) : ∀ p ∈ ps, p.SelectorsWF := by
  unfold parsePayload at h
  split at h
  · cases h
  simp only [bind_eq_ok] at h
  obtain ⟨_, -, _, -, _, -, _, -, h⟩ := h
  split at h
  · cases h
  split at h
  · cases h
  split at h
  · split at h
    · cases h
    · simp only [bind_eq_ok, pure_eq_ok, Except.ok.injEq, Prod.mk.injEq] at h
      obtain ⟨_, -, rfl, -⟩ := h
      exact List.forall_mem_nil _
  · rename_i u hu
    simp only [bind_eq_ok, pure_eq_ok, Except.ok.injEq, Prod.mk.injEq] at h
    obtain ⟨_, -, p, hp, _, -, rfl, -⟩ := h
    intro q hq
    cases List.mem_singleton.mp hq
    exact newPayload_selectorsWF hu (wrapErr_eq_ok.mp hp)

/-- The selectors of an accepted chain are well-formed. -/
theorem parseChain_selectorsWF {first : PayloadType} {body : Bytes} {ps : Payloads}
    (h : parseChain first body = .ok ps) : ∀ p ∈ ps, p.SelectorsWF :=
  many_forall consumes_parsePayload (fun _ _ _ _ _ => parsePayload_selectorsWF) h

end GoIpsec.Ikemsg

namespace GoIpsec.Session

open Golang Ikemsg Ikesa

theorem decodeSKWith_selectorsWF {c : Crypto} {ike : IKESA} {raw : Bytes} {m : Message} {inner : Payloads}
    (h : (decodeSKWith c ike raw).1 = .ok (m, inner)) : ∀ p ∈ inner, p.SelectorsWF := by
  unfold decodeSKWith at h
  split at h
  · cases h
  split at h
  · cases h
  split at h
  · cases h
  split at h
  · cases h
  · rename_i hinner
    cases h
    exact parseChain_selectorsWF hinner

theorem Session.decodeIKE_selectorsWF {c : Crypto} {env : Env} {s : Session} {raw : Bytes} {hdr : Message}
    {inner : Payloads} {slot : Slot} (h : s.decodeIKE c env raw = .ok (hdr, inner, slot)) :
    ∀ p ∈ inner, p.SelectorsWF := by
  unfold Session.decodeIKE at h
  split at h
  · rename_i hcur
    cases h
    exact decodeSKWith_selectorsWF (congrArg Prod.fst hcur)
  · split at h
    · cases h
    split at h
    · split at h
      · rename_i hold
        cases h
        exact decodeSKWith_selectorsWF (congrArg Prod.fst hold)
      · cases h
      · cases h
    · cases h
  · cases h

/-! ## Payloads that can be read back -/

/-- A payload that is not encrypted and can be read back if it can be written. -/
structure Legible (p : Payload) : Prop where
  wf : p.WF
  isSK : p.isSK = false
  size : (∃ body, p.marshalBody = .ok body ∧ body.length ≤ 65531) → p.bodySize ≤ 65531

theorem legible_sa {sa : SAPayload} (h : ∀ q ∈ sa.proposals, q.WF) : Legible (.sa sa) :=
  ⟨h, rfl, RoundTrips.size_le (SAPayload.roundTrips h)⟩

theorem legible_ke (ke : KEPayload) : Legible (.ke ke) :=
  ⟨trivial, rfl, RoundTrips.size_le (KEPayload.roundTrips ke)⟩

theorem legible_nonce {data : Bytes} (h : data.length = nonceLen) : Legible (.nonce { data }) := by
  have hwf : Ikemsg.minNonceLen ≤ data.length ∧ data.length ≤ maxNonceLen := by
    rw [h]
    decide
  exact ⟨hwf, rfl, RoundTrips.size_le (NoncePayload.roundTrips hwf)⟩

theorem legible_notify {n : NotifyPayload} (h : n.spi.length ≤ 255) : Legible (.notify n) :=
  ⟨h, rfl, RoundTrips.size_le (NotifyPayload.roundTrips h)⟩

theorem legible_tsi {selectors : List TrafficSelector} (h : selectorsWF selectors) :
    Legible (.tsi { selectors }) :=
  ⟨h, rfl, RoundTrips.size_le (TSiPayload.roundTrips h)⟩

theorem legible_tsr {selectors : List TrafficSelector} (h : selectorsWF selectors) :
    Legible (.tsr { selectors }) :=
  ⟨h, rfl, RoundTrips.size_le (TSrPayload.roundTrips h)⟩

theorem Legible.selectorsWF {p : Payload} (h : Legible p) : p.SelectorsWF := by
  cases p with
  | tsi ts => exact h.wf
  | tsr ts => exact h.wf
  | _ => exact trivial

theorem legible_deleteIKE : Legible (.delete { protocol := protocolIKE }) :=
  ⟨nofun, rfl, fun _ => by decide⟩

theorem legible_deleteChild (spi : UInt32) :
    Legible (.delete { protocol := protocolESP, spis := [putUint32 spi] }) := by
  refine ⟨fun s hs => ?_, rfl, fun _ => ?_⟩
  · cases List.mem_singleton.mp hs
    refine ⟨by simp, by simp, fun other hother => ?_⟩
    cases List.mem_singleton.mp hother
    rfl
  · simp [Payload.bodySize]

/-- What can be read back, and could be written, is well-formed. -/
theorem wf_of_legible {inner : Payloads} {pt : Bytes} (h : ∀ p ∈ inner, Legible p)
    (hpt : marshalChain inner = .ok pt) : inner.WF :=
  ⟨fun p hp => ⟨(h p hp).wf, (h p hp).size (length_le_of_marshalChain hpt p hp)⟩,
    fun p hp => (h p (List.dropLast_subset _ hp)).isSK⟩

/-! ## The messages of the control loop -/

section

variable {c : Crypto} {m : Machine}

theorem selectorsWF_full (v6 : Bool) : selectorsWF (fullSelectors v6) := by
  cases v6 <;> decide

theorem legible_trafficSelectors (v6 : Bool) : ∀ p ∈ trafficSelectors v6, Legible p := by
  intro p hp
  simp only [trafficSelectors, List.mem_cons, List.not_mem_nil, or_false] at hp
  rcases hp with rfl | rfl
  · exact legible_tsi (selectorsWF_full v6)
  · exact legible_tsr (selectorsWF_full v6)

theorem length_groups_le (dh : Option DH) : (dh.toList.map DH.group).length ≤ 100 := by
  cases dh <;> simp

theorem legible_ke_of_mem {dh : Option DH} {p : Payload}
    (hp : p ∈ dh.toList.map fun d => Payload.ke { group := d.group, data := d.pub }) : Legible p := by
  obtain ⟨d, -, rfl⟩ := List.mem_map.mp hp
  exact legible_ke _

theorem legible_childRekeyRequest {suites : List EspSuite} {v6 reestablish : Bool} {oldInSPI : UInt32}
    {newSPI ni : Bytes} {dh : Option DH} (hspi : newSPI.length = 4) (hni : ni.length = nonceLen) :
    ∀ p ∈ childRekeyRequest suites v6 oldInSPI reestablish newSPI ni dh, Legible p := by
  intro p hp
  simp only [childRekeyRequest, List.mem_append, List.mem_cons, List.not_mem_nil, or_false] at hp
  rcases hp with hp | (rfl | rfl) | hp | hp
  · split at hp
    · cases hp
    · cases List.mem_singleton.mp hp
      exact legible_notify (by simp)
  · exact legible_sa (wf_buildProposals (by omega) (length_groups_le _))
  · exact legible_nonce hni
  · exact legible_ke_of_mem hp
  · exact legible_trafficSelectors _ p hp

theorem legible_ikeRekeyRequest {suites : List IkeSuite} {spi : UInt64} {ni : Bytes} {dh : DH}
    (hni : ni.length = nonceLen) : ∀ p ∈ ikeRekeyRequest suites (putUint64 spi) ni dh, Legible p := by
  intro p hp
  simp only [ikeRekeyRequest, List.mem_cons, List.not_mem_nil, or_false] at hp
  rcases hp with rfl | rfl | rfl
  · exact legible_sa (wf_buildProposals (by simp) (by simp))
  · exact legible_nonce hni
  · exact legible_ke _

theorem Asks.legible {kind : ExchangeKind} {exchange : ExchangeType} {inner : Payloads}
    (h : Asks c m kind exchange inner) : ∀ p ∈ inner, Legible p := by
  cases h with
  | dpd => nofun
  | delete spi =>
      intro p hp
      cases List.mem_singleton.mp hp
      exact legible_deleteChild spi
  | childRekey ctx newSPI hspi hlen hni hdh hold hflag => exact legible_childRekeyRequest hlen hni
  | ikeRekey ctx hni hdh => exact legible_ikeRekeyRequest hni

theorem Declines.legible {exchange : ExchangeType} {inner : Payloads} (h : Declines exchange inner) :
    ∀ p ∈ inner, Legible p := by
  cases h with
  | ack => nofun
  | notify n herror hspi hdata =>
      intro p hp
      cases List.mem_singleton.mp hp
      exact legible_notify (by rw [hspi]; simp)

theorem AcceptsIKE.legible {inner resp : Payloads} {new : IkeCtx} (h : AcceptsIKE c m inner resp new) :
    ∀ p ∈ resp, Legible p := by
  cases h with
  | intro hreq hselect hspi hdh hshared hnr hnew =>
      intro p hp
      simp only [ikeRekeyAnswer, List.mem_cons, List.not_mem_nil, or_false] at hp
      rcases hp with rfl | rfl | rfl
      · refine legible_sa fun q hq => ?_
        cases List.mem_singleton.mp hq
        exact wf_buildProposalForSuite _ _ (by simp) (by simp)
      · exact legible_nonce hnr
      · exact legible_ke _

/-- The selectors that are collected from payloads with well-formed ones. -/
theorem selectorsWF_of_collectPayloads {check : Bool} {inner : Payloads} {acc r : RekeyPayloads}
    (hinner : ∀ p ∈ inner, p.SelectorsWF) (h : collectPayloads check acc inner = .ok r)
    (hacc : (0 < acc.tsi.length → selectorsWF acc.tsi) ∧ (0 < acc.tsr.length → selectorsWF acc.tsr)) :
    (0 < r.tsi.length → selectorsWF r.tsi) ∧ (0 < r.tsr.length → selectorsWF r.tsr) := by
  have htail {q : Payload} {ps : Payloads} (h : ∀ p ∈ q :: ps, p.SelectorsWF) : ∀ p ∈ ps, p.SelectorsWF :=
    fun p hp => h p (List.mem_cons_of_mem _ hp)
  fun_induction collectPayloads check acc inner with
  | case1 acc =>
      cases h
      exact hacc
  | case2 acc p ps ih | case3 acc p ps ih | case4 acc p ps ih | case8 acc n ps _ ih =>
      exact ih (htail hinner) h hacc
  | case5 acc p ps ih =>
      exact ih (htail hinner) h ⟨fun _ => hinner _ List.mem_cons_self, hacc.2⟩
  | case6 acc p ps ih =>
      exact ih (htail hinner) h ⟨hacc.1, fun _ => hinner _ List.mem_cons_self⟩
  | case7 => cases h
  | case9 acc p ps hsa hnonce hke htsi htsr hnotify ih => exact ih (htail hinner) h hacc

/-- The selectors of a request for a Child SA. -/
theorem ChildRekeyRequest.selectorsWF {inner : Payloads} {req : ChildRekeyRequest}
    (hinner : ∀ p ∈ inner, p.SelectorsWF) (h : childRekeyRequestPayloads inner = .ok req) :
    (0 < req.tsi.length → Ikemsg.selectorsWF req.tsi) ∧
      (0 < req.tsr.length → Ikemsg.selectorsWF req.tsr) := by
  unfold childRekeyRequestPayloads at h
  obtain ⟨r, hr, h⟩ := bind_eq_ok.mp h
  split at h
  · cases h
  split at h
  · cases h
  cases h
  exact selectorsWF_of_collectPayloads hinner hr ⟨nofun, nofun⟩

theorem legible_childRekeyAnswer {v6 : Bool} {number : UInt8} {suite : EspSuite} {newSPI nr : Bytes}
    {dh : Option DH} {req : ChildRekeyRequest} (hspi : newSPI.length = 4) (hnr : nr.length = nonceLen)
    (hreq : (0 < req.tsi.length → selectorsWF req.tsi) ∧ (0 < req.tsr.length → selectorsWF req.tsr)) :
    ∀ p ∈ childRekeyAnswer v6 number suite newSPI nr dh req, Legible p := by
  intro p hp
  simp only [childRekeyAnswer, List.mem_append, List.mem_cons, List.not_mem_nil, or_false] at hp
  rcases hp with (rfl | rfl) | hp | hp
  · refine legible_sa fun q hq => ?_
    cases List.mem_singleton.mp hq
    exact wf_buildProposalForSuite _ _ (by omega) (length_groups_le _)
  · exact legible_nonce hnr
  · exact legible_ke_of_mem hp
  · split at hp
    · rename_i hsome
      simp only [List.mem_cons, List.not_mem_nil, or_false] at hp
      rcases hp with rfl | rfl
      · exact legible_tsi (hreq.1 hsome.1)
      · exact legible_tsr (hreq.2 hsome.2)
    · exact legible_trafficSelectors _ p hp

theorem AcceptsChild.legible {sa : IKESA} {inner resp : Payloads} {u : ChildSAUpdate}
    (h : AcceptsChild c m sa inner resp u) (hinner : ∀ p ∈ inner, Legible p) :
    ∀ p ∈ resp, Legible p := by
  cases h with
  | intro hold hreq hselect hspi hpfs hnew hlen hnr hkeys =>
      exact legible_childRekeyAnswer hlen hnr
        (ChildRekeyRequest.selectorsWF (fun p hp => (hinner p hp).selectorsWF) hreq)

end

/-! ## What was encoded -/

/-- The messages that were encoded, newest first, each with its IKE SA and its encoding. -/
def sealings : List Event → List (Lineage × IkeCtx × Speech × Bytes)
  | [] => []
  | .sealed slot ctx exchange flags msgID inner raw :: log =>
      ((lineage log).at slot, ctx, { exchange, flags, msgID, inner }, raw) :: sealings log
  | _ :: log => sealings log

/-- A message that was encoded under an IKE SA of the endpoint, from legible payloads. -/
structure Spoken (c : Crypto) (log : List Event) (q : Lineage × IkeCtx × Speech × Bytes) : Prop where
  ctx : (q.1, q.2.1.keys) ∈ ikeSAs log
  raw : Seals c q.2.1 q.2.2.1.exchange q.2.2.1.flags q.2.2.1.msgID q.2.2.1.inner q.2.2.2
  legible : ∀ p ∈ q.2.2.1.inner, Legible p

/-- All messages of the endpoint are legible, and so is the one in hand. -/
structure Machine.WellSpoken (c : Crypto) (m : Machine) : Prop where
  sealed : ∀ q ∈ sealings m.log, Spoken c m.log q
  msg : ∀ x, m.msg = some x → ∀ p ∈ x.inner, Legible p

section

variable {c : Crypto} {m m' : Machine} {P log log' : List Event}

theorem Spoken.mono {q : Lineage × IkeCtx × Speech × Bytes} (h : Spoken c log q) (hlog : log <:+ log') :
    Spoken c log' q :=
  ⟨ikeSAs_suffix hlog h.ctx, h.raw, h.legible⟩

theorem exists_sealing {g : Lineage} {y : Speech} (h : (g, y) ∈ speeches log) :
    ∃ ctx raw, (g, ctx, y, raw) ∈ sealings log := by
  induction log with
  | nil => cases h
  | cons e log ih =>
      cases e with
      | «sealed» slot ctx exchange flags msgID inner raw =>
          rcases List.mem_cons.mp h with heq | h
          · cases heq
            exact ⟨ctx, raw, List.mem_cons_self⟩
          · obtain ⟨ctx', raw', hmem⟩ := ih h
            exact ⟨ctx', raw', List.mem_cons_of_mem _ hmem⟩
      | _ => exact ih h

/-- What the other endpoint has said is legible. -/
theorem Machine.WellSpoken.heard {n : Machine} (h : n.WellSpoken c) {g : Lineage} {y : Speech}
    (hy : (g, y) ∈ speeches n.log) : ∀ p ∈ y.inner, Legible p := by
  obtain ⟨ctx, raw, hmem⟩ := exists_sealing hy
  exact (h.sealed _ hmem).legible

/-- Steps that encode nothing. -/
theorem Machine.WellSpoken.silent (h : m.WellSpoken c) (hlog : m.log <:+ m'.log)
    (hsealings : sealings m'.log = sealings m.log) (hmsg : ∀ x, m'.msg = some x → m.msg = some x) :
    m'.WellSpoken c :=
  ⟨fun q hq => (h.sealed q (hsealings ▸ hq)).mono hlog, fun x hx => h.msg x (hmsg x hx)⟩

/-- A message is encoded. -/
theorem Machine.WellSpoken.say (h : m.WellSpoken c) {q : Lineage × IkeCtx × Speech × Bytes}
    (hlog : m.log <:+ m'.log) (hsealings : sealings m'.log = q :: sealings m.log)
    (hctx : (q.1, q.2.1.keys) ∈ ikeSAs m.log)
    (hraw : Seals c q.2.1 q.2.2.1.exchange q.2.2.1.flags q.2.2.1.msgID q.2.2.1.inner q.2.2.2)
    (hlegible : ∀ p ∈ q.2.2.1.inner, Legible p) (hmsg : ∀ x, m'.msg = some x → m.msg = some x) :
    m'.WellSpoken c := by
  refine ⟨fun q' hq' => ?_, fun x hx => h.msg x (hmsg x hx)⟩
  rw [hsealings] at hq'
  rcases List.mem_cons.mp hq' with rfl | hq'
  · exact ⟨ikeSAs_suffix hlog hctx, hraw, hlegible⟩
  · exact (h.sealed q' hq').mono hlog

theorem Machine.WellSpoken.move {n : Machine} (h : m.WellSpoken c) (hknows : m.Knows c n.log)
    (hpeer : n.WellSpoken c) (hmove : Move c (heardFrom n.log) m m') : m'.WellSpoken c := by
  have hgrows := hmove.log_suffix
  have hcur {ctx : IkeCtx} (hctx : ctx.keys = m.ike) : (lineage m.log, ctx.keys) ∈ ikeSAs m.log :=
    hctx ▸ hknows.cur
  cases hmove with
  | receive x hx =>
      refine ⟨h.sealed, fun y hy => ?_⟩
      cases hy
      exact hpeer.heard hx.2
  | @request kind exchange inner ctx raw hidle hopened hctx hasks hraw =>
      cases kind <;> exact h.say hgrows rfl (hcur hctx) hraw hasks.legible fun _ => id
  | notice idle hidle hctx hraw =>
      refine h.say hgrows rfl (hcur hctx) hraw (fun p hp => ?_) fun _ => id
      cases List.mem_singleton.mp hp
      exact legible_deleteIKE
  | answer hreq hctx hinner hraw =>
      exact h.say hgrows rfl (hknows.ctx hctx) hraw hinner.legible fun _ => id
  | accept hreq hexchange hctx hpending hstale haccept hraw =>
      exact h.say hgrows rfl (hknows.ctx hctx) hraw (haccept.legible (h.msg _ hreq.msg)) fun _ => id
  | acceptIKE hreq hslot hexchange hctx hpending haccept hraw =>
      exact h.say hgrows rfl (hcur hctx) hraw haccept.legible nofun
  | finish | completeIKE => exact h.silent hgrows rfl nofun
  | _ => exact h.silent hgrows rfl fun _ => id

end

end GoIpsec.Session
