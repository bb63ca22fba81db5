import GoIpsec.Session.Legible

/-!
# Two endpoints: what they agree on

Two sessions that start out with the two ends of one IKE SA run the control loop, each at
its own pace.  A turn of either takes in a datagram, a tick or the end of the session.  A
datagram is whatever the network makes of it.  If it can be decoded, the other endpoint has
encoded it under the same IKE SA.

Whatever the order of the turns, what one endpoint completes the other has accepted
before, in the same exchange and with the same result.
-/

set_option linter.dupNamespace false

namespace GoIpsec.Session

open Golang Ikemsg Ikesa

/-- What an input decodes to has been said by the other endpoint, whose log is `P`. -/
def Input.Genuine (c : Crypto) (env : Env) (d : Drive) (P : List Event) : Input → Prop
  | .datagram raw => ∀ hdr inner slot, d.s.decodeIKE c env raw = .ok (hdr, inner, slot) →
      (((lineage d.log).at slot).mirror,
        { exchange := hdr.exchange, flags := hdr.flags, msgID := hdr.messageID, inner }) ∈ speeches P
  | _ => True

instance (c : Crypto) (env : Env) (d : Drive) (P : List Event) (input : Input) :
    Decidable (input.Genuine c env d P) :=
  match input with
  | .tick | .done => isTrue trivial
  | .datagram raw =>
      match h : d.s.decodeIKE c env raw with
      | .error _ => isTrue fun hdr inner slot hok => by rw [h] at hok; cases hok
      | .ok (hdr, inner, slot) =>
          decidable_of_iff ((((lineage d.log).at slot).mirror,
            { exchange := hdr.exchange, flags := hdr.flags, msgID := hdr.messageID, inner }) ∈
              speeches P)
            ⟨fun hmem hdr' inner' slot' hok => by rw [h] at hok; cases hok; exact hmem,
              fun hall => hall hdr inner slot h⟩

/-- The runs of two endpoints from given states, by the states they have reached and
whether their loops have ended. -/
inductive JointRun (c : Crypto) (a₀ b₀ : Drive) : Drive → Bool → Drive → Bool → Prop
  | refl : JointRun c a₀ b₀ a₀ false b₀ false
  | left {a a' b : Drive} {fa fb : Bool} (env : Env) (input : Input)
      (h : JointRun c a₀ b₀ a false b fb) (hgenuine : input.Genuine c env a b.log)
      (hstep : driverStep c env input a = (.ok fa, a')) : JointRun c a₀ b₀ a' fa b fb
  | right {a b b' : Drive} {fa fb : Bool} (env : Env) (input : Input)
      (h : JointRun c a₀ b₀ a fa b false) (hgenuine : input.Genuine c env b a.log)
      (hstep : driverStep c env input b = (.ok fb, b')) : JointRun c a₀ b₀ a fa b' fb

/-- Two sessions that are about to run the control loop with the two ends of one IKE SA. -/
structure Peers (s t : Session) : Prop where
  left : Established s
  right : Established t
  sa : Mirror s.ikeSA t.ikeSA
  initiatorSPI : s.initiatorSPI = t.initiatorSPI
  responderSPI : s.responderSPI = t.responderSPI

/-- What holds of two endpoints in a run. -/
structure Allied (c : Crypto) (ia ib : UInt32) (a b : Drive) : Prop where
  left : (a.view {}).Orderly ia
  right : (b.view {}).Orderly ib
  leftPlane : a.s.dataPlane = true
  rightPlane : b.s.dataPlane = true
  paired : Paired c (a.view {}) (b.view {})
  leftSpoken : (a.view {}).WellSpoken c
  rightSpoken : (b.view {}).WellSpoken c

section

variable {c : Crypto} {a b a' : Drive} {ia ib : UInt32}

theorem Allied.symm (h : Allied c ia ib a b) : Allied c ib ia b a :=
  ⟨h.right, h.left, h.rightPlane, h.leftPlane, h.paired.symm, h.rightSpoken, h.leftSpoken⟩

theorem admitted_heardFrom {env : Env} {d : Drive} {P : List Event} {input : Input}
    (h : input.Genuine c env d P) : input.Admitted c env (heardFrom P) d := by
  cases input with
  | tick => trivial
  | done => trivial
  | datagram raw =>
      intro hdr inner slot hdecode
      exact ⟨⟨Drive.usable hdecode, h hdr inner slot hdecode⟩, fun _ _ => trivial, fun _ => trivial⟩

/-- A turn keeps the data plane and the log. -/
theorem driverStep_grows {env : Env} {input : Input} {fin : Bool} (hdp : a.s.dataPlane = true)
    (hstep : driverStep c env input a = (.ok fin, a')) : a.log <:+ a'.log ∧ a'.s.dataPlane = true := by
  have hmove (m m' : Machine) (hm : a.log <:+ m.log) (hmove : Move c anyInput m m') : a.log <:+ m'.log :=
    hm.trans hmove.log_suffix
  have hstart : a.log <:+ (a.view {}).log := List.suffix_rfl
  exact driverStep_invariant hmove hstart hdp admitted_anyInput hstep

theorem JointRun.planes {a₀ b₀ : Drive} {fa fb : Bool} (h : JointRun c a₀ b₀ a fa b fb)
    (ha : a₀.s.dataPlane = true) (hb : b₀.s.dataPlane = true) :
    a.s.dataPlane = true ∧ b.s.dataPlane = true := by
  induction h with
  | refl => exact ⟨ha, hb⟩
  | left env input h hgenuine hstep ih => exact ⟨(driverStep_grows ih.1 hstep).2, ih.2⟩
  | right env input h hgenuine hstep ih => exact ⟨ih.1, (driverStep_grows ih.2 hstep).2⟩

/-- One endpoint takes a turn. -/
theorem Allied.turn (h : Allied c ia ib a b) {env : Env} {input : Input} {fin : Bool}
    (hgenuine : input.Genuine c env a b.log) (hstep : driverStep c env input a = (.ok fin, a'))
    (hfew : FewRequests a'.log) : Allied c ia ib a' b := by
  have husable : ∀ m x, (heardFrom b.log).recv m x → m.Usable x.slot := fun _ _ hx => hx.1
  have hmove (m m' : Machine)
      (hm : m.Orderly ia ∧ (FewRequests m.log → Paired c m (b.view {}) ∧ m.WellSpoken c))
      (hmove : Move c (heardFrom b.log) m m') :
      m'.Orderly ia ∧ (FewRequests m'.log → Paired c m' (b.view {}) ∧ m'.WellSpoken c) := by
    refine ⟨hm.1.move husable hmove, fun hfew => ?_⟩
    have hbefore := hfew.suffix hmove.log_suffix
    obtain ⟨hpaired, hspoken⟩ := hm.2 hbefore
    exact ⟨hpaired.move hm.1 h.right hbefore hmove, hspoken.move hpaired.left h.rightSpoken hmove⟩
  obtain ⟨⟨horderly, hpaired⟩, hplane⟩ := driverStep_invariant hmove
    ⟨h.left, fun _ => ⟨h.paired, h.leftSpoken⟩⟩ h.leftPlane (admitted_heardFrom hgenuine) hstep
  exact ⟨horderly, h.right, hplane, h.rightPlane, (hpaired hfew).1, (hpaired hfew).2, h.rightSpoken⟩

/-- Whatever holds of the two endpoints at the start holds after every run, as long as the
Message IDs do not run out. -/
theorem JointRun.allied {a₀ b₀ : Drive} {fa fb : Bool} (h : JointRun c a₀ b₀ a fa b fb)
    (h₀ : Allied c ia ib a₀ b₀) (hfew : FewRequests a.log) (hfew' : FewRequests b.log) :
    Allied c ia ib a b := by
  induction h with
  | refl => exact h₀
  | left env input h hgenuine hstep ih =>
      have hplane := (h.planes h₀.leftPlane h₀.rightPlane).1
      exact (ih (hfew.suffix (driverStep_grows hplane hstep).1) hfew').turn hgenuine hstep hfew
  | right env input h hgenuine hstep ih =>
      have hplane := (h.planes h₀.leftPlane h₀.rightPlane).2
      have hbefore := ih hfew (hfew'.suffix (driverStep_grows hplane hstep).1)
      exact (hbefore.symm.turn hgenuine hstep hfew').symm

/-- Two endpoints that have said nothing yet. -/
theorem Machine.Fresh.paired {m n : Machine} (hm : m.Fresh) (hn : n.Fresh) (h : m.ike.Mirrors n.ike) :
    Paired c m n := by
  have hknows {m : Machine} (hm : m.Fresh) (P : List Event) : m.Knows c P := by
    obtain ⟨ctx, hlog, hctx⟩ := hm.log
    refine ⟨?_, ?_, ?_, ?_, ?_, ?_, ?_⟩
    · rw [hlog, ← hctx]
      exact List.mem_cons_self
    · rw [hm.old]
      nofun
    · rw [hm.msg]
      nofun
    · rw [hm.pending]
      nofun
    · rw [hlog]
      exact fun _ _ h => absurd h List.not_mem_nil
    · rw [hlog]
      exact fun _ _ _ h => absurd h List.not_mem_nil
    · rw [hlog]
      exact fun _ _ _ h => absurd h List.not_mem_nil
  obtain ⟨ctx, hlog, hctx⟩ := hm.log
  obtain ⟨ctx', hlog', hctx'⟩ := hn.log
  refine ⟨hknows hm _, hknows hn _, ?_, ?_⟩
  · intro g x y hx hy
    rw [hlog] at hx
    rw [hlog'] at hy
    cases List.mem_singleton.mp hx
    cases List.mem_singleton.mp hy
    rw [hctx, hctx']
    exact h
  · rw [hlog, hlog']
    exact ⟨[], .inl rfl, .inl rfl⟩

theorem Machine.Fresh.wellSpoken {m : Machine} (h : m.Fresh) : m.WellSpoken c := by
  obtain ⟨ctx, hlog, -⟩ := h.log
  refine ⟨?_, ?_⟩
  · rw [hlog]
    exact List.forall_mem_nil _
  · rw [h.msg]
    nofun

theorem ike_driverStart (env : Env) (s : Session) : ((driverStart env { s }).2.view {}).ike =
    IkeCtx.keys { sa := s.ikeSA, spii := s.initiatorSPI, spir := s.responderSPI } :=
  congrArg (fun k : Core => IkeCtx.keys { sa := k.ikeSA, spii := k.initiatorSPI, spir := k.responderSPI })
    (driverStart_core env s)

theorem orderly_driverStart (env : Env) {s : Session} (h : Established s) :
    ((driverStart env { s }).2.view {}).Fresh ∧
      ((driverStart env { s }).2.view {}).Orderly s.messageID := by
  have hfresh : ((driverStart env { s }).2.view {}).Fresh := Starts.fresh ⟨env, s, h, rfl⟩
  have hid : ((driverStart env { s }).2.view {}).messageID = s.messageID :=
    congrArg Core.messageID (driverStart_core env s)
  exact ⟨hfresh, hid ▸ hfresh.orderly⟩

theorem Peers.allied {s t : Session} (h : Peers s t) (env env' : Env) :
    Allied c s.messageID t.messageID (driverStart env { s }).2 (driverStart env' { s := t }).2 := by
  obtain ⟨hfresh, horderly⟩ := orderly_driverStart env h.left
  obtain ⟨hfresh', horderly'⟩ := orderly_driverStart env' h.right
  refine ⟨horderly, horderly', hfresh.dataPlane, hfresh'.dataPlane, hfresh.paired hfresh' ?_,
    hfresh.wellSpoken, hfresh'.wellSpoken⟩
  rw [ike_driverStart, ike_driverStart]
  exact IkeCtx.Mirrors.keys ⟨h.sa, h.initiatorSPI, h.responderSPI⟩

end

/-! ## Child SAs -/

/-- Every Child SA that an endpoint has installed as the initiator of an exchange, the other
has installed as its responder, with the keys and SPIs of the opposite direction. -/
def InstallsMatched (log P : List Event) : Prop :=
  ∀ g msgID u, ((g, msgID), u) ∈ installs .initiator log →
    ∃ v, ((g.mirror, msgID), v) ∈ installs .responder P ∧ u.Complements v

/-- Every IKE SA that an endpoint has made current as the initiator of an exchange, the
other has made current as its responder, and they have its two ends. -/
def CutoversMatched (log P : List Event) : Prop :=
  ∀ g msgID x, ((g, msgID), x) ∈ cutovers .initiator log →
    ∃ y, ((g.mirror, msgID), y) ∈ cutovers .responder P ∧ x.Mirrors y

section

variable {c : Crypto} {s t : Session} {env env' : Env} {a b : Drive} {fa fb : Bool}

/-- Whatever is lost, repeated or delayed between two endpoints, and however their turns
interleave: the Child SA that the initiator of an exchange installs is the other half of
one that the responder has installed already, in the same exchange under the same IKE SA.
An exchange gives an endpoint one Child SA at most. -/
theorem child_sas_agree (hpeers : Peers s t)
    (h : JointRun c (driverStart env { s }).2 (driverStart env' { s := t }).2 a fa b fb)
    (hfew : FewRequests a.log) (hfew' : FewRequests b.log) :
    InstallsMatched a.log b.log ∧ InstallsMatched b.log a.log ∧
      ∀ part, ((installs part a.log).map Prod.fst).Nodup ∧ ((installs part b.log).map Prod.fst).Nodup := by
  have hallied := h.allied (hpeers.allied env env') hfew hfew'
  have hpaired := hallied.paired
  exact ⟨hpaired.left.installed, hpaired.right.installed, fun part =>
    ⟨hallied.left.installs_nodup hfew part, hallied.right.installs_nodup hfew' part⟩⟩

/-- The IKE SAs of two endpoints: what one completes the other has accepted before, and
they have its two ends.  Where both have an IKE SA, they have the same keys.  Neither is
ever more than one IKE SA ahead of the other, and it is ahead by one that it has accepted. -/
theorem ike_sas_agree (hpeers : Peers s t)
    (h : JointRun c (driverStart env { s }).2 (driverStart env' { s := t }).2 a fa b fb)
    (hfew : FewRequests a.log) (hfew' : FewRequests b.log) :
    CutoversMatched a.log b.log ∧ CutoversMatched b.log a.log ∧ SharedSAs a.log b.log ∧
      Abreast (lineage a.log) (lineage b.log) ∧
      ∀ part, ((cutovers part a.log).map Prod.fst).Nodup ∧ ((cutovers part b.log).map Prod.fst).Nodup := by
  have hallied := h.allied (hpeers.allied env env') hfew hfew'
  have hpaired := hallied.paired
  exact ⟨hpaired.left.cutover, hpaired.right.cutover, hpaired.shared, hpaired.abreast, fun part =>
    ⟨hallied.left.pedigree.cutovers_nodup part, hallied.right.pedigree.cutovers_nodup part⟩⟩

/-! ## Messages -/

/-- A decoded message says what was encoded. -/
structure Conveys (hdr : Message) (inner : Payloads) (y : Speech) : Prop where
  exchange : hdr.exchange = y.exchange
  flags : hdr.flags = y.flags
  msgID : hdr.messageID = y.msgID
  inner : inner = y.inner

/-- The other end of an IKE SA decodes what was encoded with legible payloads. -/
theorem Spoken.decodes {log : List Event} {q : Lineage × IkeCtx × Speech × Bytes} (h : Spoken c log q)
    {x : IkeCtx} (hx : q.2.1.keys.Mirrors x.keys) :
    ∃ hdr inner, decodeSKWith c x.sa q.2.2.2 = (.ok (hdr, inner), true) ∧ Conveys hdr inner q.2.2.1 := by
  obtain ⟨g, ctx, y, raw⟩ := q
  obtain ⟨rand, sa', henc⟩ := h.raw
  have hmirror : Mirror ctx.sa x.sa := hx.sa.withSeq ctx.sa.skSeq x.sa.skSeq
  obtain ⟨pt, iv, pad, hpt, -⟩ := encodeSKWith_eq_ok hmirror.left henc
  obtain ⟨ps, hdecode⟩ := decodeSKWith_of_mirror hmirror (wf_of_legible h.legible hpt) henc
  exact ⟨_, _, hdecode, rfl, rfl, rfl, rfl⟩

/-- What an endpoint encodes under the current IKE SA of the other. -/
theorem Allied.decodeIKE {ia ib : UInt32} (h : Allied c ia ib a b) {g : Lineage} {ctx : IkeCtx} {y : Speech}
    {raw : Bytes} (hsealed : (g, ctx, y, raw) ∈ sealings a.log) (hlineage : lineage b.log = g.mirror)
    (now : Env) : ∃ hdr inner, b.s.decodeIKE c now raw = .ok (hdr, inner, .cur) ∧ Conveys hdr inner y := by
  have hspoken := h.leftSpoken.sealed _ hsealed
  have hcur : (lineage b.log, (b.view {}).ike) ∈ ikeSAs b.log := h.paired.right.cur
  rw [hlineage] at hcur
  obtain ⟨hdr, inner, hdecode, hconveys⟩ := hspoken.decodes (h.paired.shared _ _ _ hspoken.ctx hcur)
  have hdecode' : decodeSKWith c b.s.ikeSA raw = _ := hdecode
  refine ⟨hdr, inner, ?_, hconveys⟩
  rw [Session.decodeIKE, hdecode']

/-- What one endpoint has encoded the other can decode, to what was encoded: while the IKE SA
it was encoded under is the current one of the other, and after that IKE SA was superseded
until its grace period is over, unless the new IKE SA takes the message for its own. -/
theorem messages_understood (hpeers : Peers s t)
    (h : JointRun c (driverStart env { s }).2 (driverStart env' { s := t }).2 a fa b fb)
    (hfew : FewRequests a.log) (hfew' : FewRequests b.log) (g : Lineage) (ctx : IkeCtx) (y : Speech)
    (raw : Bytes) (hsealed : (g, ctx, y, raw) ∈ sealings a.log) (now : Env) :
    (lineage b.log = g.mirror →
      ∃ hdr inner, b.s.decodeIKE c now raw = .ok (hdr, inner, .cur) ∧ Conveys hdr inner y) ∧
    (∀ q, lineage b.log = q :: g.mirror → b.s.oldIKE.isSome = true →
      (now.clock .decode).before b.s.oldIKEUntil →
      (∃ text, decodeSKWith c b.s.ikeSA raw = (.error (.err text), false)) →
      ∃ hdr inner, b.s.decodeIKE c now raw = .ok (hdr, inner, .old) ∧ Conveys hdr inner y) := by
  have hallied := h.allied (hpeers.allied env env') hfew hfew'
  have hpaired := hallied.paired
  have hspoken := hallied.leftSpoken.sealed _ hsealed
  constructor
  · intro hlineage
    exact hallied.decodeIKE hsealed hlineage now
  · rintro q hlineage hsome hbefore ⟨text, hcur⟩
    obtain ⟨x, hx⟩ := Option.isSome_iff_exists.mp hsome
    have hold : ((lineage b.log).tail, x.keys) ∈ ikeSAs b.log :=
      hpaired.right.old x.keys (congrArg (Option.map IkeCtx.keys) hx)
    rw [hlineage, List.tail_cons] at hold
    obtain ⟨hdr, inner, hdecode, hconveys⟩ := hspoken.decodes (hpaired.shared _ _ _ hspoken.ctx hold)
    have hdecode' : decodeSKWith c x.sa raw = _ := hdecode
    refine ⟨hdr, inner, ?_, hconveys⟩
    simp only [Session.decodeIKE, hcur, hx, hbefore, hdecode', Bool.not_false, Bool.and_self, if_true]

end

/-! ## Two sample endpoints -/

/-- An end of `sampleSA` with the given configuration. -/
def sampleEnd (role : Role) (cfg : Config) : Session := { sampleSession role with cfg }

theorem established_sampleEnd (role : Role) (cfg : Config) : Established (sampleEnd role cfg) := by
  constructor <;> rfl

theorem peers_sampleEnd (cfg : Config) : Peers (sampleEnd .initiator cfg) (sampleEnd .responder cfg) := by
  refine ⟨established_sampleEnd _ cfg, established_sampleEnd _ cfg, ?_, rfl, rfl⟩
  simp only [sampleEnd, sampleSession, derivedTogether_sampleSA.mirror]

theorem JointRun.ticking {a₀ b₀ a b : Drive} {fb : Bool} {t : Time}
    (h : JointRun Crypto.sample a₀ b₀ a false b fb)
    (hok : (driverStep Crypto.sample (sampleEnv t) .tick a).1 = .ok false) :
    JointRun Crypto.sample a₀ b₀ (Session.ticking t a) false b fb :=
  .left (sampleEnv t) .tick h trivial (Prod.ext hok rfl)

theorem JointRun.leftReceiving {a₀ b₀ a b : Drive} {fb : Bool} {t : Time} {raw : Bytes}
    (h : JointRun Crypto.sample a₀ b₀ a false b fb)
    (hgenuine : (Input.datagram raw).Genuine Crypto.sample (sampleEnv t) a b.log)
    (hok : (driverStep Crypto.sample (sampleEnv t) (.datagram raw) a).1 = .ok false) :
    JointRun Crypto.sample a₀ b₀ (receiving t raw a) false b fb :=
  .left (sampleEnv t) (.datagram raw) h hgenuine (Prod.ext hok rfl)

theorem JointRun.rightReceiving {a₀ b₀ a b : Drive} {fa : Bool} {t : Time} {raw : Bytes}
    (h : JointRun Crypto.sample a₀ b₀ a fa b false)
    (hgenuine : (Input.datagram raw).Genuine Crypto.sample (sampleEnv t) b a.log)
    (hok : (driverStep Crypto.sample (sampleEnv t) (.datagram raw) b).1 = .ok false) :
    JointRun Crypto.sample a₀ b₀ a fa (receiving t raw b) false :=
  .right (sampleEnv t) (.datagram raw) h hgenuine (Prod.ext hok rfl)

/-- The last message that was encoded. -/
def lastSealed : List Event → Bytes
  | [] => []
  | .sealed _ _ _ _ _ _ raw :: _ => raw
  | _ :: log => lastSealed log

/-- A configuration under which the Child SA is due to be replaced soon, or the IKE SA. -/
def sampleDue (childRekey : Bool) : Config :=
  if childRekey then { rekeyLifetime := 100, ikeRekeyLifetime := 100000 }
  else { rekeyLifetime := 100000, ikeRekeyLifetime := 100 }

def sampleStartOf (role : Role) (childRekey : Bool) : Drive :=
  (driverStart (sampleEnv 1) { s := sampleEnd role (sampleDue childRekey) }).2

/-- The initiator has asked for the replacement. -/
def sampleAsking (childRekey : Bool) : Drive := ticking 1000 (sampleStartOf .initiator childRekey)

/-- The responder has accepted it. -/
def sampleAgreeing (childRekey : Bool) : Drive :=
  receiving 1001 (lastSealed (sampleAsking childRekey).log) (sampleStartOf .responder childRekey)

/-- The initiator has completed it. -/
def sampleCompleted (childRekey : Bool) : Drive :=
  receiving 1002 (lastSealed (sampleAgreeing childRekey).log) (sampleAsking childRekey)

/-- The three turns of the samples, each of which goes through with what the other end sent. -/
theorem sample_turns (childRekey : Bool) :
    (driverStep Crypto.sample (sampleEnv 1000) .tick (sampleStartOf .initiator childRekey)).1 = .ok false ∧
    ((Input.datagram (lastSealed (sampleAsking childRekey).log)).Genuine Crypto.sample (sampleEnv 1001)
        (sampleStartOf .responder childRekey) (sampleAsking childRekey).log ∧
      (driverStep Crypto.sample (sampleEnv 1001) (.datagram (lastSealed (sampleAsking childRekey).log))
        (sampleStartOf .responder childRekey)).1 = .ok false) ∧
    ((Input.datagram (lastSealed (sampleAgreeing childRekey).log)).Genuine Crypto.sample (sampleEnv 1002)
        (sampleAsking childRekey) (sampleAgreeing childRekey).log ∧
      (driverStep Crypto.sample (sampleEnv 1002) (.datagram (lastSealed (sampleAgreeing childRekey).log))
        (sampleAsking childRekey)).1 = .ok false) := by
  cases childRekey <;> decide +kernel

theorem jointRun_sample (childRekey : Bool) : JointRun Crypto.sample
    (sampleStartOf .initiator childRekey) (sampleStartOf .responder childRekey)
    (sampleCompleted childRekey) false (sampleAgreeing childRekey) false := by
  obtain ⟨hasking, hagreeing, hcompleted⟩ := sample_turns childRekey
  exact ((JointRun.refl.ticking hasking).rightReceiving hagreeing.1 hagreeing.2).leftReceiving
    hcompleted.1 hcompleted.2

theorem fewRequests_of_length {log : List Event} (h : (ownRequests log).length < 2 ^ 32) :
    FewRequests log := by
  intro g
  rw [requestIDs, List.length_map]
  exact Nat.lt_of_le_of_lt (List.length_filter_le _ _) h

theorem fewRequests_sample (childRekey : Bool) : FewRequests (sampleCompleted childRekey).log ∧
    FewRequests (sampleAgreeing childRekey).log := by
  have hlengths : (ownRequests (sampleCompleted childRekey).log).length < 2 ^ 32 ∧
      (ownRequests (sampleAgreeing childRekey).log).length < 2 ^ 32 := by
    cases childRekey <;> decide +kernel
  exact hlengths.imp fewRequests_of_length fewRequests_of_length

/-- A Child SA of the sample endpoints. -/
theorem child_sas_agree_sample :
    (installs .initiator (sampleCompleted true).log).map Prod.fst = [([], 2)] ∧
      InstallsMatched (sampleCompleted true).log (sampleAgreeing true).log :=
  ⟨by decide +kernel, (child_sas_agree (peers_sampleEnd (sampleDue true)) (jointRun_sample true)
    (fewRequests_sample true).1 (fewRequests_sample true).2).1⟩

/-- An IKE SA of the sample endpoints. -/
theorem ike_sas_agree_sample :
    lineage (sampleCompleted false).log = [(.initiator, 2)] ∧
      CutoversMatched (sampleCompleted false).log (sampleAgreeing false).log :=
  ⟨by decide +kernel, (ike_sas_agree (peers_sampleEnd (sampleDue false)) (jointRun_sample false)
    (fewRequests_sample false).1 (fewRequests_sample false).2).1⟩

/-- A message of the sample endpoint that has completed the exchange. -/
theorem messages_understood_sample : ∃ q ∈ sealings (sampleCompleted true).log,
    lineage (sampleAgreeing true).log = q.1.mirror ∧ ∃ hdr inner,
      (sampleAgreeing true).s.decodeIKE Crypto.sample (sampleEnv 1003) q.2.2.2 =
        .ok (hdr, inner, .cur) ∧ Conveys hdr inner q.2.2.1 := by
  obtain ⟨⟨g, ctx, y, raw⟩, hq, hlineage⟩ : ∃ q ∈ sealings (sampleCompleted true).log,
      lineage (sampleAgreeing true).log = q.1.mirror := by decide +kernel
  exact ⟨_, hq, hlineage, (messages_understood (peers_sampleEnd (sampleDue true)) (jointRun_sample true)
    (fewRequests_sample true).1 (fewRequests_sample true).2 g ctx y raw hq (sampleEnv 1003)).1 hlineage⟩

end GoIpsec.Session
