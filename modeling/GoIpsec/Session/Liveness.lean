import GoIpsec.Session.Outstanding

/-!
# Dead peer detection

A peer that was silent for some time is probed: it is sent an empty request that it must
answer.  The probe is repeated, and if it runs out of tries the peer is declared dead and
the loop ends.

Only the answer to the probe ends it.  Other messages of the peer, and its packets on the
data plane, keep a probe from being sent but do not stop one that is under way, so a
peer that is heard of can still be declared dead.

When the tries of a probe run out is fixed by the ticks (`PendingExchange.unanswered`), and
housekeeping keeps to it.  So if every probe during which the peer is heard of is answered
before its tries run out, a peer that is declared dead was silent since the probe was first
sent.
-/

set_option linter.dupNamespace false

namespace GoIpsec.Session

open Golang Ikemsg Ikesa

/-! ## Turns while a probe is outstanding -/

namespace Turn

/-- The probe `p` is outstanding when the turn begins. -/
def awaits (p : PendingExchange) (t : Turn) : Bool :=
  t.d.s.pending.any fun q => q.isProbe && q.msgID == p.msgID && q.raw == p.raw

/-- The probe `p` is sent for the first time. -/
structure Probes (c : Crypto) (p : PendingExchange) (t : Turn) : Prop where
  pending : (t.after c).s.pending = some p
  probe : p.isProbe = true
  first : t.awaits p = false

/-- A datagram comes in that passes the integrity check. -/
def Hears (c : Crypto) (t : Turn) : Prop :=
  ∃ raw res, t.input = .datagram raw ∧ t.d.s.decodeIKE c t.env raw = .ok res

/-- The answer to the probe `p` comes in. -/
def Answers (c : Crypto) (p : PendingExchange) (t : Turn) : Prop :=
  ∃ hdr inner, t.TakesIn c hdr inner .cur ∧ hdr.exchange = exchangeInformational ∧
    hdr.flags.isResponse = true ∧ hdr.messageID = p.msgID

end Turn

/-- The turns since the probe `p` was first sent, newest first. -/
def sinceProbe (p : PendingExchange) (ts : List Turn) : List Turn := ts.takeWhile (Turn.awaits p)

/-- The turn in which the probe `p` was first sent. -/
def probeTurn (p : PendingExchange) (ts : List Turn) : Option Turn :=
  (ts.dropWhile (Turn.awaits p)).head?

/-- No message of the peer came in since the probe was first sent, and the data plane did
not hear of it. -/
def SilentSince (c : Crypto) (p : PendingExchange) (ts : List Turn) (lastData : Time) : Prop :=
  (∀ t ∈ sinceProbe p ts, ¬ t.Hears c) ∧
    ∃ t₀, probeTurn p ts = some t₀ ∧ lastData = t₀.env.lastDataInbound

/-! ## When the tries run out -/

/-- An exchange after turns that do not answer it, newest first.  Of the turns only the
ticks count, and of those the clocks, with the settings of the session. -/
def PendingExchange.unanswered (p : PendingExchange) : List Turn → Option PendingExchange
  | [] => some p
  | t :: ts =>
      (p.unanswered ts).bind fun q =>
        match t.input with
        | .tick => q.polled t.env t.d.s
        | _ => some q

/-- The peer is heard of after the turn `t₀`, up to the turn `t`: in one of the turns between
the two, or by the data plane. -/
def HeardOf (c : Crypto) (t₀ : Turn) (since : List Turn) (t : Turn) : Prop :=
  (∃ t' ∈ since, t'.Hears c) ∨ t.env.lastDataInbound ≠ t₀.env.lastDataInbound

/-- Every probe during which the peer is heard of is answered before its tries run out.  The
turns are given newest first: the tries of `p` run out in `t`. -/
def AnsweredInTime (c : Crypto) (ts : List Turn) : Prop :=
  ∀ p t since t₀ older, t :: (since ++ t₀ :: older) <:+ ts → t₀.Probes c p →
    p.unanswered since ≠ none → p.unanswered (t :: since) = none → HeardOf c t₀ since t →
    ∃ t' ∈ since, t'.Answers c p

section

variable {c : Crypto} {env : Env} {d d' : Drive} {ts since : List Turn} {p q : PendingExchange}

theorem Turn.awaits_iff {t : Turn} : t.awaits p = true ↔
    ∃ q, t.d.s.pending = some q ∧ q.isProbe = true ∧ q.msgID = p.msgID ∧ q.raw = p.raw := by
  unfold Turn.awaits
  cases t.d.s.pending <;> simp [and_assoc]

theorem Turn.awaits_congr (hid : q.msgID = p.msgID) (hraw : q.raw = p.raw) :
    Turn.awaits q = Turn.awaits p := by
  funext t
  rw [Turn.awaits, Turn.awaits, hid, hraw]

theorem SilentSince.congr {lastData : Time} (h : SilentSince c q ts lastData)
    (hid : q.msgID = p.msgID) (hraw : q.raw = p.raw) : SilentSince c p ts lastData := by
  unfold SilentSince sinceProbe probeTurn at h ⊢
  rwa [← Turn.awaits_congr hid hraw]

theorem silentSince_append {t₀ : Turn} {older : List Turn} (hawaits : ∀ t ∈ since, t.awaits p = true)
    (hfirst : t₀.awaits p = false) (hdeaf : ∀ t ∈ since, ¬ t.Hears c) :
    SilentSince c p (since ++ t₀ :: older) t₀.env.lastDataInbound := by
  have hneg : ¬ t₀.awaits p = true := Bool.eq_false_iff.mp hfirst
  refine ⟨?_, t₀, ?_, rfl⟩
  · rw [sinceProbe, List.takeWhile_append_of_pos hawaits, List.takeWhile_cons_of_neg hneg,
      List.append_nil]
    exact hdeaf
  · rw [probeTurn, List.dropWhile_append_of_pos hawaits, List.dropWhile_cons_of_neg hneg,
      List.head?_cons]

theorem PendingExchange.unanswered_same (h : p.unanswered since = some q) :
    q.kind = p.kind ∧ q.msgID = p.msgID ∧ q.raw = p.raw := by
  induction since generalizing q with
  | nil =>
      cases h
      exact ⟨rfl, rfl, rfl⟩
  | cons t since ih =>
      obtain ⟨r, hr, h⟩ := Option.bind_eq_some_iff.mp h
      obtain ⟨hkind, hid, hraw⟩ := ih hr
      cases hinput : t.input with
      | tick =>
          rw [hinput] at h
          obtain ⟨hkind', hid', hraw'⟩ := polled_same h
          exact ⟨hkind'.trans hkind, hid'.trans hid, hraw'.trans hraw⟩
      | _ =>
          rw [hinput] at h
          cases h
          exact ⟨hkind, hid, hraw⟩

/-- The answer ends the probe. -/
theorem driverStep_answer {input : Input} {fin : Bool} (hp : d.s.pending = some p)
    (hprobe : p.isProbe = true) (hanswer : Turn.Answers c p { env, d, input })
    (hstep : driverStep c env input d = (.ok fin, d')) : d'.s.pending = none := by
  obtain ⟨hdr, inner, htakes, hexchange, hresp, hid⟩ := hanswer
  have hkind : p.kind = .dpd := of_decide_eq_true hprobe
  have hrun : driverStep c env input d = dispatch c env hdr inner .cur (heard env d) := htakes.step
  have hclear : clearPending hdr.messageID (heard env d) =
      (.ok (), { heard env d with s := { (heard env d).s with pending := none } }) := by
    simp [clearPending, setSession, heard, hp, hid, hkind, ExchangeKind.isRekey]
  rw [hrun, dispatch, if_pos hexchange, if_pos hresp] at hstep
  dsimp only at hstep
  rw [Proc.bind_of_ok hclear] at hstep
  cases hstep
  rfl

/-- While a probe is outstanding it was sent in some turn, has gone along its schedule since and
has not been answered. -/
theorem Reaches.probed {d₀ : Drive} (h : Reaches c d₀ ts d false) (h₀ : d₀.s.pending = none)
    (hq : d.s.pending = some q) (hprobe : q.isProbe = true) :
    ∃ p since t₀ older, ts = since ++ t₀ :: older ∧ t₀.Probes c p ∧ p.unanswered since = some q ∧
      ∀ t ∈ since, t.awaits p = true ∧ ¬ t.Answers c p := by
  generalize hfin : false = fin at h
  induction h generalizing q with
  | refl =>
      rw [h₀] at hq
      cases hq
  | @turn ts d d' fin env input h hstep ih =>
      subst hfin
      have hafter : Turn.after c { env, d, input } = d' := congrArg Prod.snd hstep
      cases hawaits : Turn.awaits q { env, d, input } with
      | false =>
          exact ⟨q, [], { env, d, input }, ts, rfl, ⟨by rw [hafter]; exact hq, hprobe, hawaits⟩, rfl,
            fun t ht => by cases ht⟩
      | true =>
          -- the probe was outstanding already
          obtain ⟨r, hr, hrprobe, hid, hraw⟩ := Turn.awaits_iff.mp hawaits
          obtain ⟨p, since, t₀, older, rfl, hsent, hsince, hall⟩ := ih hr hrprobe rfl
          obtain ⟨-, hid', hraw'⟩ := PendingExchange.unanswered_same hsince
          have hnext : (p.unanswered ({ env, d, input } :: since)) = some q := by
            rw [PendingExchange.unanswered, hsince]
            cases input with
            | tick => exact ((driverStep_tick hr hrprobe hstep).2 rfl).symm.trans hq
            | datagram raw =>
                rcases driverStep_datagram hr hrprobe hstep with hsame | hnone
                · exact hsame.symm.trans hq
                · cases hnone.symm.trans hq
            | done =>
                obtain ⟨_, _, _, hend⟩ := Proc.bind_eq_ok hstep
                cases congrArg Prod.fst hend
          have hopen : ¬ Turn.Answers c p { env, d, input } := by
            rintro ⟨hdr, inner, htakes, hexchange, hresp, hmsg⟩
            have hnone := driverStep_answer hr hrprobe
              ⟨hdr, inner, htakes, hexchange, hresp, hmsg.trans hid'.symm⟩ hstep
            cases hnone.symm.trans hq
          refine ⟨p, { env, d, input } :: since, t₀, older, rfl, hsent, hnext, fun t ht => ?_⟩
          rcases List.mem_cons.mp ht with rfl | ht
          · exact ⟨Turn.awaits_iff.mpr ⟨r, hr, hrprobe, hid', hraw'⟩, hopen⟩
          · exact hall t ht

/-! ## The verdict -/

/-- A probe that was just sent. -/
theorem initiateDPD_pending {fast : Bool} (hidle : d.s.pending = none)
    (hp : (initiateDPD c env fast d).2.s.pending = some p) : p.fast = fast ∧ p.attempts = 1 := by
  have henc : Encoded c .cur exchangeInformational (ikeRoleBit d.s.ikeSA.role) d.s.messageID [] d
      (encodeSKEmpty c env exchangeInformational (ikeRoleBit d.s.ikeSA.role) d.s.messageID d) :=
    encoded_encodeEmptyIn ..
  rw [initiateDPD, run_session_bind, request, run_session_bind] at hp
  generalize hx : encodeSKEmpty c env exchangeInformational (ikeRoleBit d.s.ikeSA.role) d.s.messageID
    d = res at henc
  cases henc with
  | failed e d₁ n n' hs hlog =>
      rw [Proc.bind_of_error hx] at hp
      have hnone : d₁.s.pending = none := by
        rw [hs]
        exact hidle
      rw [hnone] at hp
      cases hp
  | done raw d₁ n n' ctx hctx hraw hs hlog =>
      rw [Proc.bind_of_ok hx, Proc.bind_of_ok (setPending_apply ..)] at hp
      cases hp
      exact ⟨rfl, rfl⟩

/-- If nothing is outstanding, a tick that finds a gap sends a fast probe. -/
theorem detectSuspend_idle {now : Time} (hidle : d.s.pending = none)
    (hp : (detectSuspend c env now d).2.s.pending = some p) : p.fast = true ∧ p.attempts = 1 := by
  rw [detectSuspend, run_session_bind, run_setSession_bind] at hp
  split at hp
  · cases hidle.symm.trans hp
  · rw [run_session_bind] at hp
    simp only [hidle] at hp
    rw [Proc.attempt_bind_pure_snd] at hp
    exact initiateDPD_pending rfl hp

/-- Only a probe that is outstanding when the tick begins can end the loop. -/
theorem housekeeping_dead (h : housekeeping c env d = (.ok true, d')) :
    ∃ p, d.s.pending = some p ∧ p.isProbe = true := by
  cases hq : d.s.pending with
  | some q =>
      obtain ⟨d₁, hp₁, -, hrun⟩ := housekeeping_busy c env hq
      have hpoll := polled_retransmitPending env (env.clock .tick) hp₁
      rw [← hrun, h] at hpoll
      cases hpoll with
      | dead d' hpoll hprobe hlog =>
          refine ⟨q, rfl, decide_eq_true ?_⟩
          rw [← hprobe, PendingExchange.woken]
          split <;> rfl
  | none =>
      obtain ⟨⟨⟩, d₀, hsuspend, -⟩ := Proc.bind_eq_ok h
      obtain ⟨d₁, old, peer, del, hs, hrun⟩ := housekeeping_of_detectSuspend hsuspend
      rw [hrun, run_session_bind] at h
      cases hp₁ : d₁.s.pending with
      | none =>
          rw [hp₁] at h
          obtain ⟨_, _, _, h⟩ := Proc.bind_eq_ok h
          cases congrArg Prod.fst h
      | some p =>
          -- a probe that was just sent has a try left
          have hp₀ : (detectSuspend c env (env.clock .tick) d).2.s.pending = some p := by
            rw [hsuspend, ← hp₁, hs]
          obtain ⟨hfast, hfirst⟩ := detectSuspend_idle hq hp₀
          have hpoll := polled_retransmitPending env (env.clock .tick) hp₁
          rw [hp₁] at h
          rw [show retransmitPending env (env.clock .tick) p d₁ = _ from h] at hpoll
          cases hpoll with
          | dead d' hpoll hprobe hlog =>
              have htries : d₁.s.tries p.fast ≤ p.attempts := (Attempt.poll_eq_none.mp hpoll).2
              rw [hfast, hfirst] at htries
              exact absurd (show 2 ≤ 1 from htries) (by decide)

/-- If every probe during which the peer is heard of is answered before its tries run out, a
peer that is declared dead was silent since the probe was first sent. -/
theorem dead_only_when_silent {d₀ : Drive} (hstart : Starts d₀) (h : Reaches c d₀ ts d false)
    (hprompt : AnsweredInTime c ({ env, d, input := .tick } :: ts))
    (hdead : (driverStep c env .tick d).1 = .ok true) :
    ∃ p, d.s.pending = some p ∧ p.isProbe = true ∧ SilentSince c p ts env.lastDataInbound := by
  have h₀ : d₀.s.pending = none := Option.map_eq_none_iff.mp hstart.fresh.pending
  have hstep : driverStep c env .tick d = (.ok true, (driverStep c env .tick d).2) := Prod.ext hdead rfl
  obtain ⟨q, hq, hprobe⟩ := housekeeping_dead hstep
  obtain ⟨p, since, t₀, older, rfl, hsent, hsince, hall⟩ := h.probed h₀ hq hprobe
  -- the tries of the probe run out in this tick, so it was not answered before
  have hout : p.unanswered ({ env, d, input := .tick } :: since) = none := by
    rw [PendingExchange.unanswered, hsince]
    exact Option.isNone_iff_eq_none.mp (driverStep_tick hq hprobe hstep).1.symm
  have hsilent : ¬ HeardOf c t₀ since { env, d, input := .tick } := by
    intro hheard
    obtain ⟨t, ht, hanswer⟩ := hprompt p _ since t₀ older List.suffix_rfl hsent (by rw [hsince]; nofun)
      hout hheard
    exact (hall t ht).2 hanswer
  obtain ⟨hdeaf, hdata⟩ := not_or.mp hsilent
  obtain ⟨-, hid, hraw⟩ := PendingExchange.unanswered_same hsince
  refine ⟨q, hq, hprobe, SilentSince.congr ?_ hid.symm hraw.symm⟩
  rw [show env.lastDataInbound = t₀.env.lastDataInbound from not_not.mp hdata]
  exact silentSince_append (fun t ht => (hall t ht).1) hsent.first fun t ht hhears => hdeaf ⟨t, ht, hhears⟩

end

/-! ## Runs that are answered in time -/

section

variable {c : Crypto} {t : Turn} {ts : List Turn}

theorem answeredInTime_nil : AnsweredInTime c [] := by
  intro p t since t₀ older hsuffix
  cases List.suffix_nil.mp hsuffix

/-- A run that goes on is answered in time if the tries of no probe run out in the new turn that
was not answered while the peer was heard of. -/
theorem AnsweredInTime.cons (h : AnsweredInTime c ts)
    (hlast : ∀ p since t₀ older, ts = since ++ t₀ :: older → t₀.Probes c p →
      p.unanswered (t :: since) = none → HeardOf c t₀ since t → ∃ t' ∈ since, t'.Answers c p) :
    AnsweredInTime c (t :: ts) := by
  intro p t' since t₀ older hsuffix hsent hopen hout hheard
  rcases List.suffix_cons_iff.mp hsuffix with heq | hsuffix
  · cases heq
    exact hlast p since t₀ older rfl hsent hout hheard
  · exact h p t' since t₀ older hsuffix hsent hopen hout hheard

/-- Tries run out in a tick only. -/
theorem AnsweredInTime.datagram {raw : Bytes} (h : AnsweredInTime c ts) (hinput : t.input = .datagram raw) :
    AnsweredInTime c (t :: ts) := by
  intro p t' since t₀ older hsuffix hsent hopen hout hheard
  rcases List.suffix_cons_iff.mp hsuffix with heq | hsuffix
  · cases heq
    refine (hopen ?_).elim
    rw [PendingExchange.unanswered, hinput] at hout
    cases hsince : p.unanswered since with
    | none => rfl
    | some q =>
        rw [hsince] at hout
        cases hout
  · exact h p t' since t₀ older hsuffix hsent hopen hout hheard

theorem not_probes (h : ∀ p ∈ (t.after c).s.pending, t.awaits p = true) (p : PendingExchange) :
    ¬ t.Probes c p := by
  intro hsent
  have hfirst := hsent.first
  rw [h p hsent.pending] at hfirst
  cases hfirst

end

/-! ## A peer that is heard of -/

/-- A tick of the sample session. -/
def tickAt (t : Time) (d : Drive) : Turn where
  env := sampleEnv t
  d := d
  input := .tick

theorem not_hears_tickAt (c : Crypto) (t : Time) (d : Drive) : ¬ (tickAt t d).Hears c := by
  rintro ⟨raw, res, hinput, -⟩
  cases hinput

/-- The sample session is probed after a gap of half a minute. -/
def sampleProbed : Drive := ticking 31000000001 (sampleStart .initiator)

/-- A request of the peer while the probe is outstanding. -/
def sampleHeard : Turn where
  env := sampleEnv 31000000002
  d := sampleProbed
  input := .datagram (fromResponder exchangeInformational 0 0 [])

/-- The state after the request of the peer. -/
def sampleHeardOf : Drive :=
  receiving 31000000002 (fromResponder exchangeInformational 0 0 []) sampleProbed

theorem reaches_sampleHeardOf : Reaches Crypto.sample (sampleStart .initiator)
    [sampleHeard, tickAt 31000000001 (sampleStart .initiator)] sampleHeardOf false :=
  (Reaches.refl.ticking (by decide +kernel)).receiving (by decide +kernel)

/-- The answer to the probe. -/
def sampleAnswering : Turn where
  env := sampleEnv 31000000003
  d := sampleHeardOf
  input := .datagram (fromResponder exchangeInformational flagResponse 2 [])

/-- After the answer there is a gap again, and the session is probed once more. -/
def sampleReprobed : Drive := ticking 62000000000
  (receiving 31000000003 (fromResponder exchangeInformational flagResponse 2 []) sampleHeardOf)

def sampleReprobing : Turn := tickAt 62000000000
  (receiving 31000000003 (fromResponder exchangeInformational flagResponse 2 []) sampleHeardOf)

theorem reaches_sampleReprobed : Reaches Crypto.sample (sampleStart .initiator)
    [sampleReprobing, sampleAnswering, sampleHeard, tickAt 31000000001 (sampleStart .initiator)]
    sampleReprobed false :=
  (reaches_sampleHeardOf.receiving (by decide +kernel)).ticking (by decide +kernel)

/-- The request of the peer is taken in, and so is the answer to the probe. -/
theorem decoded_sample :
    (sampleProbed.s.decodeIKE Crypto.sample (sampleEnv 31000000002)
      (fromResponder exchangeInformational 0 0 [])).isOk = true ∧
    (sampleHeardOf.s.decodeIKE Crypto.sample (sampleEnv 31000000003)
      (fromResponder exchangeInformational flagResponse 2 [])).toOption.any (fun r =>
        r.2.2 == .cur && r.1.exchange == exchangeInformational && r.1.flags.isResponse &&
          r.1.messageID == 2) = true := by
  decide +kernel

theorem hears_sampleHeard : sampleHeard.Hears Crypto.sample := by
  have hok := decoded_sample.1
  cases hres : sampleProbed.s.decodeIKE Crypto.sample (sampleEnv 31000000002)
      (fromResponder exchangeInformational 0 0 []) with
  | ok res => exact ⟨_, res, rfl, hres⟩
  | error e =>
      rw [hres] at hok
      cases hok

theorem answers_sampleAnswering {p : PendingExchange} (hid : p.msgID = 2) :
    sampleAnswering.Answers Crypto.sample p := by
  have hcheck := decoded_sample.2
  cases hdecode : sampleHeardOf.s.decodeIKE Crypto.sample (sampleEnv 31000000003)
      (fromResponder exchangeInformational flagResponse 2 []) with
  | error e =>
      rw [hdecode] at hcheck
      cases hcheck
  | ok res =>
      obtain ⟨hdr, inner, slot⟩ := res
      simp only [hdecode, Except.toOption, Option.any_some, Bool.and_eq_true, beq_iff_eq] at hcheck
      obtain ⟨⟨⟨rfl, hexchange⟩, hresp⟩, hmsg⟩ := hcheck
      exact ⟨hdr, inner, ⟨_, rfl, hdecode⟩, hexchange, hresp, hmsg.trans hid.symm⟩

/-- What is outstanding after the turns: the probe of the first tick, nothing new after the request
and after the answer, and the probe of the second tick while its tries last. -/
theorem pending_sample :
    (∀ p ∈ ((tickAt 31000000001 (sampleStart .initiator)).after Crypto.sample).s.pending,
      p.msgID = 2) ∧
    (∀ p ∈ (sampleHeard.after Crypto.sample).s.pending, sampleHeard.awaits p = true) ∧
    (∀ p ∈ (sampleAnswering.after Crypto.sample).s.pending, sampleAnswering.awaits p = true) ∧
    ∀ p ∈ ((tickAt 64000000001 sampleReprobed).after Crypto.sample).s.pending,
      (tickAt 64000000001 sampleReprobed).awaits p = true := by
  decide +kernel

/-- The first probe is answered. -/
theorem answered_sampleProbed {since older : List Turn} {t₀ : Turn} {p : PendingExchange}
    (heq : [sampleAnswering, sampleHeard, tickAt 31000000001 (sampleStart .initiator)] =
      since ++ t₀ :: older) (hsent : t₀.Probes Crypto.sample p) :
    ∃ t' ∈ since, t'.Answers Crypto.sample p := by
  obtain ⟨hid, hheard, hanswering, -⟩ := pending_sample
  rcases List.cons_eq_append_iff.mp heq with ⟨rfl, h⟩ | ⟨since, rfl, hrest⟩
  · cases h
    exact (not_probes hanswering p hsent).elim
  refine ⟨sampleAnswering, List.mem_cons_self, answers_sampleAnswering ?_⟩
  rcases List.cons_eq_append_iff.mp hrest with ⟨rfl, h⟩ | ⟨since, rfl, hrest₁⟩
  · cases h
    exact (not_probes hheard p hsent).elim
  rcases List.cons_eq_append_iff.mp hrest₁ with ⟨rfl, h⟩ | ⟨since, rfl, hrest₂⟩
  · cases h
    exact hid p hsent.pending
  · cases (List.append_eq_nil_iff.mp hrest₂.symm).2

/-- The peer is not heard of during the second. -/
theorem answeredInTime_sample (last : Turn) (hlast : last.env.lastDataInbound = 0) :
    AnsweredInTime Crypto.sample [last, tickAt 64000000001 sampleReprobed, sampleReprobing,
      sampleAnswering, sampleHeard, tickAt 31000000001 (sampleStart .initiator)] := by
  have hfirst : AnsweredInTime Crypto.sample [tickAt 31000000001 (sampleStart .initiator)] :=
    answeredInTime_nil.cons fun p since t₀ older heq => by
      cases (List.append_eq_nil_iff.mp heq.symm).2
  have hanswered : AnsweredInTime Crypto.sample
      [sampleAnswering, sampleHeard, tickAt 31000000001 (sampleStart .initiator)] :=
    (hfirst.datagram rfl).datagram rfl
  refine ((hanswered.cons fun p since t₀ older heq hsent _ _ => answered_sampleProbed heq hsent).cons
    ?_).cons ?_
  · intro p since t₀ older heq hsent _ hheard
    rcases List.cons_eq_append_iff.mp heq with ⟨rfl, h⟩ | ⟨since, rfl, hrest⟩
    · cases h
      rcases hheard with ⟨t, ht, -⟩ | hdata
      · cases ht
      · exact (hdata rfl).elim
    · obtain ⟨t, ht, hanswer⟩ := answered_sampleProbed hrest hsent
      exact ⟨t, List.mem_cons_of_mem _ ht, hanswer⟩
  · intro p since t₀ older heq hsent _ hheard
    rcases List.cons_eq_append_iff.mp heq with ⟨rfl, h⟩ | ⟨since, rfl, hrest⟩
    · cases h
      exact (not_probes pending_sample.2.2.2 p hsent).elim
    rcases List.cons_eq_append_iff.mp hrest with ⟨rfl, h⟩ | ⟨since, rfl, hrest₁⟩
    · cases h
      rcases hheard with ⟨t, ht, hhears⟩ | hdata
      · cases List.mem_singleton.mp ht
        exact (not_hears_tickAt _ _ _ hhears).elim
      · exact (hdata hlast).elim
    · obtain ⟨t, ht, hanswer⟩ := answered_sampleProbed hrest₁ hsent
      exact ⟨t, List.mem_cons_of_mem _ (List.mem_cons_of_mem _ ht), hanswer⟩

/-- A peer whose request and answer came in while it was probed, and that then sends nothing, is
declared dead when the second probe has run out of tries. -/
theorem dead_only_when_silent_sample :
    sampleHeard.Hears Crypto.sample ∧
    (driverStep Crypto.sample (sampleEnv 66000000002) .tick (ticking 64000000001 sampleReprobed)).1 =
      .ok true ∧
    ∃ p, SilentSince Crypto.sample p
      [tickAt 64000000001 sampleReprobed, sampleReprobing, sampleAnswering, sampleHeard,
        tickAt 31000000001 (sampleStart .initiator)] 0 := by
  have hdead : (driverStep Crypto.sample (sampleEnv 66000000002) .tick
      (ticking 64000000001 sampleReprobed)).1 = .ok true := by decide +kernel
  obtain ⟨p, -, -, hsilent⟩ := dead_only_when_silent (starts_sampleStart .initiator)
    (reaches_sampleReprobed.ticking (by decide +kernel)) (answeredInTime_sample _ rfl) hdead
  exact ⟨hears_sampleHeard, hdead, p, hsilent⟩

/-- A peer is declared dead although a request of its own came in after the probe was
sent. -/
theorem dead_although_heard :
    ∃ (d₀ d : Drive) (ts : List Turn) (env : Env), Starts d₀ ∧
      Reaches Crypto.sample d₀ ts d false ∧
      (driverStep Crypto.sample env .tick d).1 = .ok true ∧
      ∀ p, d.s.pending = some p → ¬ SilentSince Crypto.sample p ts env.lastDataInbound := by
  have hsame : ∀ p ∈ (ticking 33000000001 sampleHeardOf).s.pending, sampleHeard.awaits p = true ∧
      (tickAt 33000000001 sampleHeardOf).awaits p = true := by decide +kernel
  refine ⟨sampleStart .initiator, ticking 33000000001 sampleHeardOf,
    [tickAt 33000000001 sampleHeardOf, sampleHeard, tickAt 31000000001 (sampleStart .initiator)],
    sampleEnv 35000000001, starts_sampleStart _,
    reaches_sampleHeardOf.ticking (by decide +kernel), by decide +kernel, fun p hp hsilent => ?_⟩
  obtain ⟨hawaits, hawaits'⟩ := hsame p hp
  refine hsilent.1 sampleHeard ?_ hears_sampleHeard
  rw [sinceProbe, List.takeWhile_cons_of_pos hawaits', List.takeWhile_cons_of_pos hawaits]
  exact List.mem_cons_of_mem _ List.mem_cons_self

end GoIpsec.Session
