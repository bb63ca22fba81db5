import GoIpsec.Lib.Refine
import GoIpsec.Session.Machine

/-!
# The control loop refines the exchange machine

Every turn of the control loop is a sequence of moves.  There is one statement per
procedure: from which states it is used, and what is known of the message in hand
when it returns.

Most of what a procedure does is not seen by the machine.  Random reads, sending and
the computation of deadlines leave the session and the log as they are (`Silent`).
Encoding advances an IV counter (`Session.withSeq`) and logs the message.
-/

set_option linter.dupNamespace false

namespace GoIpsec.Session

open Golang Ikemsg Ikesa

@[simp] theorem run_session_bind {α : Type} (f : Session → Drv α) (d : Drive) :
    (session >>= f) d = f d.s d := rfl

@[simp] theorem run_setSession_bind {α : Type} (g : Session → Session) (f : Unit → Drv α) (d : Drive) :
    (setSession g >>= f) d = f () { d with s := g d.s } := rfl

@[simp] theorem run_emit_bind {α : Type} (e : Event) (f : Unit → Drv α) (d : Drive) :
    (emit e >>= f) d = f () { d with log := e :: d.log } := rfl

theorem run_recordPeerResponse_bind {α : Type} (slot : Slot) (msgID : UInt32) (raw : Bytes)
    (f : Unit → Drv α) (d : Drive) : (recordPeerResponse slot msgID raw >>= f) d =
      f () { d with s := d.s.record slot msgID raw, log := .answered slot msgID raw :: d.log } := rfl

theorem run_noteRequest_bind {α : Type} (msgID : UInt32) (raw : Bytes) (f : Unit → Drv α)
    (d : Drive) : (noteRequest msgID raw >>= f) d = f () { d with
      log := .requested msgID raw d.s.pending.isNone :: d.log } := rfl

/-- A call of the transport whose error is handled. -/
theorem run_attempt_sendDatagram_bind {α : Type} (env : Env) (raw : Bytes)
    (f : Option String → Drv α) (d : Drive) :
    ∃ o, (Proc.attempt (sendDatagram env raw) >>= f) d =
      f o { d with sent := d.s.frame raw :: d.sent } := by
  have hsend : sendDatagram env raw d = (_, { d with sent := d.s.frame raw :: d.sent }) := rfl
  refine Proc.attempt_bind_of_safe hsend ?_
  split
  · exact Safe.ok ()
  · exact Safe.fail _

/-- A call of the loop is a run of the machine. -/
abbrev Sim {α : Type} (c : Crypto) (r : Rules) (d : Drive) (h : Hand) (x : Drv α)
    (Q : Except String α → Drive → Hand → Prop) : Prop :=
  Refines (Move c r) Drive.view d h x Q

theorem Drive.view_congr {d d' : Drive} (hs : d'.s = d.s) (hlog : d'.log = d.log) (h : Hand) :
    d'.view h = d.view h := by
  simp only [Drive.view, hs, hlog]

/-! ## Calls the machine does not see -/

/-- The call leaves the session and the log as they are. -/
def Silent {α : Type} (x : Drv α) : Prop := ∀ d, (x d).2.s = d.s ∧ (x d).2.log = d.log

namespace Silent

variable {α β : Type} {c : Crypto} {env : Env}

theorem lift (x : Go α) : Silent (Proc.lift x) := fun _ => ⟨rfl, rfl⟩

theorem pure (a : α) : Silent (Pure.pure a : Drv α) := fun _ => ⟨rfl, rfl⟩

theorem session : Silent Session.session := fun _ => ⟨rfl, rfl⟩

theorem randRead : Silent (Session.randRead env) := fun _ => ⟨rfl, rfl⟩

theorem sendDatagram (raw : Bytes) : Silent (Session.sendDatagram env raw) := fun _ => ⟨rfl, rfl⟩

theorem bind {x : Drv α} {f : α → Drv β} (hx : Silent x) (hf : ∀ a, Silent (f a)) :
    Silent (x >>= f) := by
  intro d
  obtain ⟨hs, hlog⟩ := hx d
  rcases h : x d with ⟨r, d'⟩
  rw [h] at hs hlog
  cases r with
  | ok a =>
      rw [Proc.bind_of_ok h]
      exact ⟨(hf a d').1.trans hs, (hf a d').2.trans hlog⟩
  | error e =>
      rw [Proc.bind_of_error h]
      exact ⟨hs, hlog⟩

theorem randBytes (n : Nat) : Silent (Session.randBytes env n) :=
  randRead.bind fun _ => lift _

theorem randUint64 : Silent (Session.randUint64 env) :=
  (randBytes 8).bind fun _ => lift _

theorem newDHFor (group : UInt16) : Silent (Session.newDHFor c env group) :=
  randRead.bind fun _ => lift _

theorem newChildDH : Silent (Session.newChildDH c env) := by
  refine session.bind fun s => ?_
  split
  · exact (newDHFor _).bind fun _ => pure _
  · exact pure _

theorem randFraction : Silent (Session.randFraction env) := by
  refine randRead.bind fun x => ?_
  split
  · exact pure _
  · exact pure _

theorem jitteredDeadline (base : Time) (lifetime : Duration) :
    Silent (Session.jitteredDeadline env base lifetime) := by
  unfold Session.jitteredDeadline
  split
  · exact pure _
  · exact randFraction.bind fun _ => pure _

theorem responseFlags (slot : Slot) : Silent (Session.responseFlags slot) := by
  refine session.bind fun s => ?_
  split
  · exact lift _
  · exact pure _

end Silent

section

variable {α β : Type} {c : Crypto} {env : Env} {r : Rules} {d : Drive} {h : Hand}

/-- What is known after a silent call. -/
structure Unseen (d : Drive) (h : Hand) (d' : Drive) (h' : Hand) : Prop where
  hand : h' = h
  session : d'.s = d.s
  log : d'.log = d.log

theorem Unseen.view {d' : Drive} {h' : Hand} (hu : Unseen d h d' h') : d'.view h' = d.view h := by
  rw [hu.hand]
  exact Drive.view_congr hu.session hu.log h

theorem Silent.sim {x : Drv α} (hx : Silent x) :
    Sim c r d h x fun res d' h' => Unseen d h d' h' ∧
      match res with
      | .ok a => x d = (.ok a, d')
      | .error text => x d = (.error (.err text), d') := by
  refine ⟨h, ?_, ?_⟩
  · rw [Drive.view_congr (hx d).1 (hx d).2]
  · have hu : Unseen d h (x d).2 h := ⟨rfl, (hx d).1, (hx d).2⟩
    cases hr : (x d).1 with
    | ok a => exact ⟨hu, Prod.ext hr rfl⟩
    | error e =>
        cases e with
        | err text => exact ⟨hu, Prod.ext hr rfl⟩
        | panic => trivial
        | diverge => trivial

/-- A silent call in front of another. -/
theorem Sim.silent_bind {x : Drv α} {f : α → Drv β} {Q : Except String β → Drive → Hand → Prop}
    (hx : Silent x)
    (hok : ∀ a d', x d = (.ok a, d') → Unseen d h d' h → Sim c r d' h (f a) Q)
    (herror : ∀ text d', x d = (.error (.err text), d') → Unseen d h d' h → Q (.error text) d' h) :
    Sim c r d h (x >>= f) Q := by
  refine hx.sim.bind ?_ ?_
  · rintro a d' h' ⟨hu, hval⟩
    obtain rfl := hu.hand
    exact hok a d' hval hu
  · rintro text d' h' ⟨hu, hval⟩
    obtain rfl := hu.hand
    exact herror text d' hval hu

/-- A call of the transport whose error is only logged. -/
theorem Sim.send_ignored {raw : Bytes} {a : α} {Q : Except String α → Drive → Hand → Prop}
    (hQ : ∀ d', Unseen d h d' h → Q (.ok a) d' h) :
    Sim c r d h (Proc.attempt (sendDatagram env raw) >>= fun _ => Pure.pure a) Q := by
  refine (Silent.sendDatagram raw).sim.attempt_bind ?_ ?_
  · rintro _ d' h' ⟨hu, -⟩
    obtain rfl := hu.hand
    exact Refines.pure (hQ d' hu)
  · rintro _ d' h' ⟨hu, -⟩
    obtain rfl := hu.hand
    exact Refines.pure (hQ d' hu)

theorem Sim.session_bind {f : Session → Drv β} {Q : Except String β → Drive → Hand → Prop}
    (hf : Sim c r d h (f d.s) Q) : Sim c r d h (session >>= f) Q := hf

/-- A change of the session that is a run of the machine, in front of a call. -/
theorem Sim.setSession_bind {g : Session → Session} {f : Unit → Drv β}
    {Q : Except String β → Drive → Hand → Prop} (h' : Hand)
    (hrun : Relation.ReflTransGen (Move c r) (d.view h) (Drive.view { d with s := g d.s } h'))
    (hf : Sim c r { d with s := g d.s } h' (f ()) Q) : Sim c r d h (setSession g >>= f) Q := by
  obtain ⟨h'', hrun', hend⟩ := hf
  exact ⟨h'', hrun.trans hrun', hend⟩

theorem Sim.setSession {g : Session → Session} {Q : Except String Unit → Drive → Hand → Prop}
    (h' : Hand)
    (hrun : Relation.ReflTransGen (Move c r) (d.view h) (Drive.view { d with s := g d.s } h'))
    (hQ : Q (.ok ()) { d with s := g d.s } h') : Sim c r d h (Session.setSession g) Q :=
  ⟨h', hrun, hQ⟩

/-- An event that is a move of the machine, in front of a call. -/
theorem Sim.emit_bind {e : Event} {f : Unit → Drv β} {Q : Except String β → Drive → Hand → Prop}
    (h' : Hand)
    (hrun : Relation.ReflTransGen (Move c r) (d.view h) (Drive.view { d with log := e :: d.log } h'))
    (hf : Sim c r { d with log := e :: d.log } h' (f ()) Q) : Sim c r d h (emit e >>= f) Q := by
  obtain ⟨h'', hrun', hend⟩ := hf
  exact ⟨h'', hrun.trans hrun', hend⟩

theorem length_of_randBytes {n : Nat} {b : Bytes} {d' : Drive}
    (hb : randBytes env n d = (.ok b, d')) : b.length = n :=
  RandRead.full_length (congrArg Prod.fst hb)

theorem newDH_of_newDHFor {group : UInt16} {dh : DH} {d' : Drive}
    (hdh : newDHFor c env group d = (.ok dh, d')) : ∃ rand, newDH c group rand = .ok dh :=
  ⟨_, congrArg Prod.fst hdh⟩

theorem newDH_of_newChildDH {dh : Option DH} {d' : Drive} (hdh : newChildDH c env d = (.ok dh, d'))
    (p : DH) (hp : dh = some p) : ∃ group rand, newDH c group rand = .ok p := by
  subst hp
  change (if d.s.childPFS then _ else _ : Drv (Option DH)) d = _ at hdh
  split at hdh
  · rcases hx : newDHFor c env d.s.childRekeyGroup d with ⟨res, d₁⟩
    cases res with
    | error e =>
        rw [Proc.bind_of_error hx] at hdh
        cases congrArg Prod.fst hdh
    | ok p' =>
        rw [Proc.bind_of_ok hx] at hdh
        have hp : some p' = some p := Except.ok.inj (congrArg Prod.fst hdh)
        cases hp
        obtain ⟨rand, hrand⟩ := newDH_of_newDHFor hx
        exact ⟨_, rand, hrand⟩
  · have hnone : none = some p := Except.ok.inj (congrArg Prod.fst hdh)
    cases hnone

end

/-! ## Encoding -/

/-- The session with other IV counters. -/
def Session.withSeq (s : Session) (n n' : UInt64) : Session :=
  { s with
    ikeSA := { s.ikeSA with skSeq := n }
    oldIKE := s.oldIKE.map fun ctx => { ctx with sa := { ctx.sa with skSeq := n' } } }

theorem Drive.view_withSeq {d d' : Drive} {n n' : UInt64} (hs : d'.s = d.s.withSeq n n')
    (h : Hand) : d'.view h = { d.view h with log := d'.log } := by
  simp only [Drive.view, hs, Session.withSeq, Option.map_map, IkeCtx.keys]
  rfl

theorem Drive.view_of_withSeq {d d' : Drive} {n n' : UInt64} (hs : d'.s = d.s.withSeq n n')
    (hlog : d'.log = d.log) (h : Hand) : d'.view h = d.view h := by
  rw [Drive.view_withSeq hs, hlog]
  rfl

theorem Session.setSA_eq_withSeq {s : Session} {slot : Slot} {ctx : IkeCtx}
    (hctx : s.ctx slot = some ctx) (k : UInt64) :
    ∃ n n', s.setSA slot { ctx.sa with skSeq := k } = s.withSeq n n' := by
  cases slot with
  | cur =>
      cases hctx
      cases hold : s.oldIKE with
      | none => exact ⟨k, 0, by simp only [Session.setSA, Session.withSeq, hold, Option.map_none]⟩
      | some old =>
          refine ⟨k, old.sa.skSeq, ?_⟩
          simp only [Session.setSA, Session.withSeq, hold, Option.map_some]
  | old =>
      refine ⟨s.ikeSA.skSeq, k, ?_⟩
      change s.oldIKE = some ctx at hctx
      simp only [Session.setSA, Session.withSeq, hctx, Option.map_some]

/-- The two ways an encoding ends. -/
inductive Encoded (c : Crypto) (slot : Slot) (exchange : ExchangeType) (flags : Flags)
    (msgID : UInt32) (inner : Payloads) (d : Drive) : Go Bytes × Drive → Prop
  | failed (e : Fault) (d' : Drive) (n n' : UInt64) (hs : d'.s = d.s.withSeq n n')
      (hlog : d'.log = d.log) : Encoded c slot exchange flags msgID inner d (.error e, d')
  | done (raw : Bytes) (d' : Drive) (n n' : UInt64) (ctx : IkeCtx) (hctx : d.s.ctx slot = some ctx)
      (hraw : Seals c ctx exchange flags msgID inner raw) (hs : d'.s = d.s.withSeq n n')
      (hlog : d'.log = .sealed slot ctx exchange flags msgID inner raw :: d.log) :
      Encoded c slot exchange flags msgID inner d (.ok raw, d')

section

variable {c : Crypto} {env : Env} {r : Rules} {d : Drive} {h : Hand}

theorem Session.eq_withSeq (s : Session) : ∃ n n', s = s.withSeq n n' := by
  have hctx : s.ctx .cur = some { sa := s.ikeSA, spii := s.initiatorSPI, spir := s.responderSPI } :=
    rfl
  obtain ⟨n, n', hn⟩ := Session.setSA_eq_withSeq hctx s.ikeSA.skSeq
  exact ⟨n, n', hn⟩

theorem encoded_encodeIn (slot : Slot) (exchange : ExchangeType) (flags : Flags) (msgID : UInt32)
    (inner : Payloads) (d : Drive) : Encoded c slot exchange flags msgID inner d
      (encodeIn c env slot exchange flags msgID inner d) := by
  unfold encodeIn
  cases hctx : d.s.ctx slot with
  | none =>
      obtain ⟨n, n', hs⟩ := d.s.eq_withSeq
      exact .failed _ _ n n' hs rfl
  | some ctx =>
      obtain ⟨k, hk⟩ := encodeSKWith_snd c ctx.sa (env.rand d.reads) ctx.spii ctx.spir exchange flags
        msgID inner
      obtain ⟨n, n', hs⟩ := Session.setSA_eq_withSeq hctx k
      dsimp only
      rw [hk]
      split
      · exact .failed _ _ n n' hs rfl
      · rename_i raw hraw
        exact .done _ _ n n' ctx hctx ⟨_, _, Prod.ext hraw rfl⟩ hs rfl

theorem encoded_encodeEmptyIn (slot : Slot) (exchange : ExchangeType) (flags : Flags)
    (msgID : UInt32) (d : Drive) : Encoded c slot exchange flags msgID [] d
      (encodeEmptyIn c env slot exchange flags msgID d) := by
  unfold encodeEmptyIn
  cases hctx : d.s.ctx slot with
  | none =>
      obtain ⟨n, n', hs⟩ := d.s.eq_withSeq
      exact .failed _ _ n n' hs rfl
  | some ctx =>
      obtain ⟨k, hk⟩ := encodeSKEmptyWith_snd c ctx.sa (env.rand d.reads) ctx.spii ctx.spir exchange
        flags msgID
      obtain ⟨n, n', hs⟩ := Session.setSA_eq_withSeq hctx k
      dsimp only
      rw [hk]
      split
      · exact .failed _ _ n n' hs rfl
      · rename_i raw hraw
        exact .done _ _ n n' ctx hctx ⟨_, _, encodeSKWith_of_empty (Prod.ext hraw rfl)⟩ hs rfl

/-! ## Requests of ours -/

/-- What is known after a request of ours: if there was no error, it is outstanding. -/
def Requested (kind : ExchangeKind → Prop) (h : Hand) (res : Except String Unit) (d' : Drive)
    (h' : Hand) : Prop :=
  h' = h ∧ (res = .ok () → ∃ p, d'.s.pending = some p ∧ kind p.kind)

theorem setPending_apply (kind : ExchangeKind) (msgID : UInt32) (raw : Bytes) (base : Duration)
    (fast : Bool) (d : Drive) :
    setPending env kind msgID raw base fast d =
      (.ok (), { d with
        s := { d.s with
          messageID := d.s.messageID + 1
          pending := some { kind, msgID, raw, attempts := 1,
                            nextRetransmit := (env.clock .request).add base, fast } }
        log := startEvents kind ++
          .requested msgID raw d.s.pending.isNone :: d.log }) := by
  cases kind <;> rfl

theorem request_sim {kind : ExchangeKind} {exchange : ExchangeType} {inner : Payloads}
    {base : Duration} {fast : Bool} {encode : Flags → UInt32 → Drv Bytes}
    (hencode : ∀ flags msgID d, Encoded c .cur exchange flags msgID inner d (encode flags msgID d))
    (hidle : d.s.pending = none) (hfree : h.opened = true → h.busy = true)
    (hasks : Asks c (d.view h) kind exchange inner) :
    Sim c r d h (request env kind base fast encode) (Requested (· = kind) h) := by
  have henc := hencode (ikeRoleBit d.s.ikeSA.role) d.s.messageID d
  generalize hx : encode (ikeRoleBit d.s.ikeSA.role) d.s.messageID d = res at henc
  unfold Sim Refines request
  simp only [run_session_bind]
  cases henc with
  | failed e d' n n' hs hlog =>
      rw [Proc.bind_of_error hx]
      refine ⟨h, ?_, ?_⟩
      · rw [Drive.view_of_withSeq hs hlog]
      · cases e with
        | err text => exact ⟨rfl, fun hres => by cases hres⟩
        | panic => trivial
        | diverge => trivial
  | done raw d' n n' ctx hctx hraw hs hlog =>
      cases hctx
      rw [Proc.bind_of_ok hx, Proc.bind_of_ok (setPending_apply kind d.s.messageID raw base fast d')]
      refine ⟨h, .single ?_, ?_⟩
      · have hnone : (d.view h).pending = none := by simp [Drive.view, hidle]
        have hmove : Move c r (d.view h) _ := Move.request hnone hfree rfl hasks hraw
        convert hmove using 1
        simp only [Drive.view, sendDatagram, hs, Session.withSeq, hlog, hidle, Option.isNone_none,
          Machine.push, Option.map_map, List.append_assoc, List.cons_append, List.nil_append]
        rfl
      · by_cases hsend : env.sendOK d'.sent.length
        · simp only [sendDatagram, hsend, if_true]
          exact ⟨rfl, fun _ => ⟨_, rfl, rfl⟩⟩
        · simp only [sendDatagram, hsend]
          exact ⟨rfl, fun hres => by cases hres⟩

theorem initiateChildRekey_sim {reestablish : Bool} (hidle : d.s.pending = none)
    (hfree : h.opened = true → h.busy = true) (hflag : (d.view h).reestablish = reestablish) :
    Sim c r d h (initiateChildRekey c env reestablish)
      (Requested (fun k => ∃ ctx, k = .childRekey ctx ∧ ctx.reestablish = reestablish) h) := by
  refine Sim.session_bind ?_
  cases hchild : d.s.child with
  | none => exact Refines.lift ⟨rfl, fun hres => by cases hres⟩
  | some child =>
      have herror (text : String) (d' : Drive) :
          Requested (fun k => ∃ ctx, k = .childRekey ctx ∧ ctx.reestablish = reestablish) h
            (.error text) d' h := ⟨rfl, fun hres => by cases hres⟩
      refine Sim.silent_bind (Silent.randBytes 4) (fun newSPI d₁ hspi hu₁ => ?_) fun t d' _ _ =>
        herror t d'
      refine Sim.silent_bind (Silent.lift _) (fun newInSPI d₂ hnew hu₂ => ?_) fun t d' _ _ =>
        herror t d'
      refine Sim.silent_bind (Silent.randBytes nonceLen) (fun ni d₃ hni hu₃ => ?_) fun t d' _ _ =>
        herror t d'
      refine Sim.silent_bind Silent.newChildDH (fun dh d₄ hdh hu₄ => ?_) fun t d' _ _ =>
        herror t d'
      refine Sim.session_bind ?_
      have hs : d₄.s = d.s :=
        hu₄.session.trans (hu₃.session.trans (hu₂.session.trans hu₁.session))
      have hview : d₄.view h = d.view h := by rw [hu₄.view, hu₃.view, hu₂.view, hu₁.view]
      rw [hs]
      refine (request_sim (fun flags msgID d => encoded_encodeIn .cur _ flags msgID _ d)
        (by rw [hs, hidle]) hfree ?_).weaken ?_
      · rw [hview]
        exact .childRekey _ newSPI (congrArg Prod.fst hnew) (length_of_randBytes hspi)
          (length_of_randBytes hni) (newDH_of_newChildDH hdh) ⟨child, hchild, rfl⟩ hflag
      · rintro res d' h' ⟨rfl, hp⟩
        refine ⟨rfl, fun hres => ?_⟩
        obtain ⟨p, hp, hkind⟩ := hp hres
        exact ⟨p, hp, _, hkind, rfl⟩

theorem initiateIKERekey_sim (hidle : d.s.pending = none)
    (hfree : h.opened = true → h.busy = true) :
    Sim c r d h (initiateIKERekey c env) (Requested (fun _ => True) h) := by
  have herror (text : String) (d' : Drive) : Requested (fun _ => True) h (.error text) d' h :=
    ⟨rfl, fun hres => by cases hres⟩
  refine Sim.silent_bind Silent.randUint64 (fun newSPIi d₁ _ hu₁ => ?_) fun t d' _ _ => herror t d'
  refine Sim.session_bind ?_
  refine Sim.silent_bind (Silent.newDHFor _) (fun dh d₂ hdh hu₂ => ?_) fun t d' _ _ => herror t d'
  refine Sim.silent_bind (Silent.randBytes nonceLen) (fun ni d₃ hni hu₃ => ?_) fun t d' _ _ =>
    herror t d'
  refine Sim.session_bind ?_
  have hs : d₃.s = d.s := hu₃.session.trans (hu₂.session.trans hu₁.session)
  have hview : d₃.view h = d.view h := by rw [hu₃.view, hu₂.view, hu₁.view]
  rw [hs]
  refine (request_sim (fun flags msgID d => encoded_encodeIn .cur _ flags msgID _ d)
    (by rw [hs, hidle]) hfree ?_).weaken ?_
  · rw [hview]
    exact .ikeRekey { newSPIi, ni, dh } (length_of_randBytes hni) ⟨_, newDH_of_newDHFor hdh⟩
  · rintro res d' h' ⟨rfl, hp⟩
    refine ⟨rfl, fun hres => ?_⟩
    obtain ⟨p, hp, -⟩ := hp hres
    exact ⟨p, hp, trivial⟩

theorem sendChildDelete_sim (inSPI : UInt32) (hidle : d.s.pending = none)
    (hfree : h.opened = true → h.busy = true) :
    Sim c r d h (sendChildDelete c env inSPI) (Requested (· = .delete) h) :=
  Sim.session_bind (request_sim (fun flags msgID d => encoded_encodeIn .cur _ flags msgID _ d) hidle
    hfree (.delete inSPI))

theorem initiateDPD_sim (fast : Bool) (hidle : d.s.pending = none)
    (hfree : h.opened = true → h.busy = true) :
    Sim c r d h (initiateDPD c env fast) (Requested (· = .dpd) h) :=
  Sim.session_bind (request_sim (fun flags msgID d => encoded_encodeEmptyIn .cur _ flags msgID d)
    hidle hfree .dpd)

/-! ## Answers -/

/-- A request of the peer is being processed. -/
def Hand.serving (x : Msg) : Hand := { msg := some x, opened := true, busy := true }

/-- The request in hand is answered, or its answer could not be encoded. -/
def Answered (d' : Drive) (h' : Hand) : Prop :=
  h'.owed = false ∧ (h'.busy = true → Event.unanswered ∈ d'.log)

/-- The same of a call that has no error of its own. -/
def Processed {α : Type} : Except String α → Drive → Hand → Prop
  | .ok _, d', h' => Answered d' h'
  | .error _, _, _ => False

theorem Processed.answered {α : Type} {res : Except String α} {d' : Drive} {h' : Hand}
    (hres : Processed res d' h') : Answered d' h' := by
  cases res with
  | ok a => exact hres
  | error text => exact hres.elim

theorem Drive.view_ctx {slot : Slot} {ctx : IkeCtx} (hctx : d.s.ctx slot = some ctx) :
    (d.view h).ctx slot = some ctx.keys := by
  cases slot with
  | cur =>
      cases hctx
      rfl
  | old =>
      change d.s.oldIKE = some ctx at hctx
      simp only [Machine.ctx, Drive.view, hctx, Option.map_some]

/-- An encoding whose failure is logged. -/
theorem Encoded.orUnanswered {slot : Slot} {exchange : ExchangeType} {flags : Flags} {msgID : UInt32}
    {inner : Payloads} {encode : Drv Bytes}
    (hencode : Encoded c slot exchange flags msgID inner d (encode d)) :
    (∃ e d', encode.onError (emit .unanswered) d = (.error e, d') ∧
      Relation.ReflTransGen (Move c r) (d.view h) (d'.view h) ∧
      ∀ text, e = .err text → Event.unanswered ∈ d'.log) ∨
    ∃ raw d' n n' ctx, encode.onError (emit .unanswered) d = (.ok raw, d') ∧
      d.s.ctx slot = some ctx ∧ Seals c ctx exchange flags msgID inner raw ∧
      d'.s = d.s.withSeq n n' ∧ d'.log = .sealed slot ctx exchange flags msgID inner raw :: d.log := by
  generalize hx : encode d = res at hencode
  cases hencode with
  | failed e d' n n' hs hlog =>
      have hview : d.view h = d'.view h := (Drive.view_of_withSeq hs hlog _).symm
      refine .inl ?_
      by_cases he : ∃ text, e = .err text
      · obtain ⟨text, rfl⟩ := he
        refine ⟨_, _, Proc.onError_of_err hx, .single ?_, fun _ _ => List.mem_cons_self⟩
        rw [hview]
        exact Move.unanswered
      · refine ⟨e, d', Proc.onError_of_fault hx fun text ht => he ⟨text, ht⟩, ?_,
          fun text ht => absurd ⟨text, ht⟩ he⟩
        rw [hview]
  | done raw d' n n' ctx hctx hraw hs hlog =>
      exact .inr ⟨raw, d', n, n', ctx, Proc.onError_of_ok hx, hctx, hraw, hs, hlog⟩

theorem answerWith_sim {x : Msg} {ctx : IkeCtx} {inner : Payloads} {encode : Drv Bytes}
    (hreq : x.flags.isResponse = false) (hctx : d.s.ctx x.slot = some ctx)
    (hencode : Encoded c x.slot x.exchange (answerFlags ctx) x.msgID inner d (encode d))
    (hinner : Declines x.exchange inner) :
    Sim c r d (.serving x) (answerWith env x.slot x.msgID encode) Processed := by
  refine Refines.attempt_bind (Q := fun _ => Answered) ?_ (fun _ _ _ hQ => .pure hQ)
    (fun _ _ _ hQ => .pure hQ)
  rcases hencode.orUnanswered with ⟨e, d', hon, hrun, hun⟩ |
    ⟨raw, d', n, n', ctx', hon, hctx', hraw, hs, hlog⟩
  · exact Refines.failed (.serving x) (Proc.bind_of_error hon) hrun
      fun text ht => ⟨rfl, fun _ => hun text ht⟩
  · obtain rfl : ctx' = ctx := Option.some.inj (hctx'.symm.trans hctx)
    unfold Refines
    rw [Proc.bind_of_ok hon]
    refine ⟨{ msg := some x, opened := true }, .single ?_, Ends.intro (fun _ => ⟨rfl, fun hb => by cases hb⟩) _⟩
    have hmove : Move c r (d.view (.serving x)) _ :=
      Move.answer ⟨rfl, rfl, rfl, hreq⟩ (Drive.view_ctx hctx) hinner hraw
    convert hmove using 1
    change Drive.view { d' with s := d'.s.record x.slot x.msgID raw, log := _ :: d'.log } _ = _
    cases hslot : x.slot <;>
      simp only [Session.record, Machine.record, Machine.push, Drive.view, hs, hlog, hslot,
        Session.withSeq, Option.map_map] <;>
      rfl

/-- The flags of a response are those of the SA of its slot. -/
theorem Sim.responseFlags_bind {β : Type} {slot : Slot} {f : Flags → Drv β}
    {Q : Except String β → Drive → Hand → Prop}
    (hf : ∀ ctx, d.s.ctx slot = some ctx → Sim c r d h (f (answerFlags ctx)) Q) :
    Sim c r d h (responseFlags slot >>= f) Q := by
  cases hctx : d.s.ctx slot with
  | none =>
      have hx : responseFlags slot d = (.error .panic, d) := by
        rw [responseFlags, run_session_bind, hctx]
        rfl
      exact Refines.failed h (Proc.bind_of_error hx) .refl fun _ he => by cases he
  | some ctx =>
      have hx : responseFlags slot d = (.ok (answerFlags ctx), d) := by
        rw [responseFlags, run_session_bind, hctx]
        rfl
      unfold Sim Refines
      rw [Proc.bind_of_ok hx]
      exact hf ctx hctx

theorem sendNotifyResponse_sim {x : Msg} {protocol : ProtocolID} {type : NotifyType} {data : Bytes}
    (hreq : x.flags.isResponse = false) (hexchange : x.exchange = exchangeCreateChildSA)
    (herror : type.isError = true) (hdata : data.length ≤ 2) :
    Sim c r d (.serving x) (sendNotifyResponse c env x.slot x.msgID protocol type data)
      Processed := by
  refine Sim.responseFlags_bind fun ctx hctx => ?_
  have hinner : Declines x.exchange [.notify { protocol, type, data }] := by
    rw [hexchange]
    exact .notify _ herror rfl hdata
  refine answerWith_sim hreq hctx ?_ hinner
  rw [hexchange]
  exact encoded_encodeIn x.slot _ _ x.msgID _ d

theorem Sim.lift_bind {α β : Type} {x : Go α} {a : α} {f : α → Drv β}
    {Q : Except String β → Drive → Hand → Prop} (hx : x = .ok a) (hf : Sim c r d h (f a) Q) :
    Sim c r d h (Proc.lift x >>= f) Q := by
  subst hx
  exact hf

/-- A silent call whose error is answered with a notify. -/
theorem Sim.orNotify_bind {α β : Type} {y : Drv α} {f : α → Drv β} {x : Msg}
    {protocol : ProtocolID} {type : NotifyType} {data : Bytes}
    {Q : Except String β → Drive → Hand → Prop} (hy : Silent y)
    (hreq : x.flags.isResponse = false) (hexchange : x.exchange = exchangeCreateChildSA)
    (herror : type.isError = true) (hdata : data.length ≤ 2)
    (hQ : ∀ text d' h', Answered d' h' → Q (.error text) d' h')
    (hok : ∀ a d', y d = (.ok a, d') → Unseen d (.serving x) d' (.serving x) →
      Sim c r d' (.serving x) (f a) Q) :
    Sim c r d (.serving x)
      (y.onError (sendNotifyResponse c env x.slot x.msgID protocol type data) >>= f) Q := by
  refine Refines.bind (hy.sim.onError (S := Answered) ?_) ?_ ?_
  · rintro text d' h' ⟨hu, -⟩
    obtain rfl := hu.hand
    exact (sendNotifyResponse_sim hreq hexchange herror hdata).weaken fun _ _ _ hQ => hQ.answered
  · rintro a d' h' ⟨hu, hval⟩
    obtain rfl := hu.hand
    exact hok a d' hval hu
  · exact hQ

/-- What is known after the key exchange of a request: the secret of both ends, or an
answer. -/
def KeyExchanged (c : Crypto) (ke : Option KEPayload) (d : Drive) (h : Hand) :
    Except String (Option (DH × Bytes)) → Drive → Hand → Prop
  | .ok pfs, d', h' => Unseen d h d' h' ∧ Agrees c ke pfs
  | .error _, d', h' => Answered d' h'

theorem childRekeyPFS_sim {x : Msg} (ke : Option KEPayload) (hreq : x.flags.isResponse = false)
    (hexchange : x.exchange = exchangeCreateChildSA) :
    Sim c r d (.serving x) (childRekeyPFS c env x.slot x.msgID ke)
      (KeyExchanged c ke d (.serving x)) := by
  cases ke with
  | none => exact Refines.pure ⟨⟨rfl, rfl, rfl⟩, .plain⟩
  | some ke =>
      refine Sim.orNotify_bind (Silent.newDHFor _) hreq hexchange rfl (Nat.zero_le 2)
        (fun _ _ _ hQ => hQ) fun dh d₁ hdh hu₁ => ?_
      refine Sim.orNotify_bind (Silent.lift _) hreq hexchange rfl (Nat.zero_le 2)
        (fun _ _ _ hQ => hQ) fun shared d₂ hshared hu₂ => ?_
      obtain ⟨rand, hrand⟩ := newDH_of_newDHFor hdh
      exact Refines.pure ⟨⟨rfl, hu₂.session.trans hu₁.session, hu₂.log.trans hu₁.log⟩,
        .pfs hrand (wrapErr_eq_ok.mp (congrArg Prod.fst hshared))⟩

theorem randFraction_lt (env : Env) (d : Drive) :
    ∃ n d', randFraction env d = (.ok n, d') ∧ n < 65536 := by
  unfold randFraction
  cases hf : (env.rand d.reads).full 2 with
  | ok b =>
      have hlt := getBE_lt b
      rw [RandRead.full_length hf] at hlt
      exact ⟨getBE b, _, by simp [bind, Proc.bind, randRead, hf, pure, Proc.lift]; rfl, hlt⟩
  | error e => exact ⟨32768, _, by simp [bind, Proc.bind, randRead, hf, pure, Proc.lift]; rfl, by decide⟩

theorem jitteredDeadline_ok (env : Env) (base : Time) (lifetime : Duration) (d : Drive) :
    ∃ t d', jitteredDeadline env base lifetime d = (.ok t, d') ∧ d'.s = d.s ∧ d'.log = d.log := by
  have hsilent : Silent (jitteredDeadline env base lifetime) :=
    Silent.jitteredDeadline base lifetime
  obtain ⟨hs, hlog⟩ := hsilent d
  have hok : ∃ t, (jitteredDeadline env base lifetime d).1 = .ok t := by
    unfold jitteredDeadline
    by_cases hl : lifetime ≤ 0
    · rw [if_pos hl]
      exact ⟨_, rfl⟩
    · obtain ⟨n, d₁, hn, -⟩ := randFraction_lt env d
      rw [if_neg hl, Proc.bind_of_ok hn]
      exact ⟨_, rfl⟩
  obtain ⟨t, ht⟩ := hok
  exact ⟨t, _, Prod.ext ht rfl, hs, hlog⟩

theorem exactScaled_ge {lifetime : Duration} (hpos : 0 < lifetime) (n : Nat) :
    lifetime * 85 / 100 ≤ exactScaled lifetime n := by
  rw [exactScaled, ← Int.mul_ediv_mul_of_pos_left (lifetime * 85) 100 (by decide : (0 : Int) < 65536)]
  refine Int.ediv_le_ediv (by decide) ?_
  rw [Int.mul_assoc]
  exact Int.mul_le_mul_of_nonneg_left
    (Int.le_add_of_nonneg_right (Int.mul_nonneg (by decide) (Int.natCast_nonneg n))) (Int.le_of_lt hpos)

/-- A deadline falls into the lifetime, and into its last 15 percent up to what rounding takes. -/
theorem jitteredDeadline_within {env : Env} {base t : Time} {lifetime : Duration} {d d' : Drive}
    (hpos : 0 < lifetime) (h : jitteredDeadline env base lifetime d = (.ok t, d')) :
    lifetime * 85 / 100 ≤ t.sub base + (1 + lifetime / 2 ^ 50) ∧ t.sub base < lifetime := by
  obtain ⟨n, d₁, hn, hlt⟩ := randFraction_lt env d
  rw [jitteredDeadline, if_neg (Int.not_le.mpr hpos), Proc.bind_of_ok hn] at h
  obtain rfl : base.add (env.scaling.scaled lifetime n) = t := Except.ok.inj (congrArg Prod.fst h)
  have hsub : (base.add (env.scaling.scaled lifetime n)).sub base = env.scaling.scaled lifetime n := by
    have hnonneg : 0 ≤ env.scaling.scaled lifetime n := env.scaling.nonneg lifetime n hpos hlt
    rw [Time.sub, Time.add, Int.toNat_of_nonneg (Int.add_nonneg (Int.natCast_nonneg base) hnonneg),
      add_sub_cancel_left]
  rw [hsub]
  exact ⟨Int.le_trans (exactScaled_ge hpos n) (env.scaling.close lifetime n hpos hlt).1,
    env.scaling.below lifetime n hpos hlt⟩

theorem run_installChildSA_bind {α : Type} {role : Role} {slot : Slot} {msgID : UInt32}
    {u : ChildSAUpdate} (f : Unit → Drv α) (hdp : d.s.dataPlane = true) :
    (installChildSA role slot msgID u >>= f) d =
      f () { d with log := .install role slot msgID u :: d.log } := by
  have hx : installChildSA role slot msgID u d =
      (.ok (), { d with log := .install role slot msgID u :: d.log }) := by
    rw [installChildSA, run_session_bind, if_pos hdp]
    rfl
  rw [Proc.bind_of_ok hx]

/-- The state after a Child SA of the peer is installed. -/
theorem installAnswered_view {slot : Slot} {msgID : UInt32} {pfs : Option DH} {u : ChildSAUpdate}
    {child : ChildSA} {raw : Bytes} (hdp : d.s.dataPlane = true) (h' : Hand) :
    (installAnswered env slot msgID pfs u child raw d).2.view h' =
      (({ d.view h' with child := some child } : Machine).record slot msgID raw).push
        [.answered slot msgID raw, .install .responder slot msgID u] := by
  unfold installAnswered
  rw [run_setSession_bind, run_installChildSA_bind _ (by cases pfs <;> exact hdp),
    run_setSession_bind, run_session_bind]
  obtain ⟨t, d', hx, hs, hlog⟩ := jitteredDeadline_ok env _ _ _
  rw [Proc.bind_of_ok hx, run_setSession_bind]
  change Drive.view { d' with s := _, log := _ :: d'.log, sent := _ } h' = _
  cases slot <;> cases pfs <;>
    simp only [Session.record, Machine.record, Machine.push, Drive.view, hs, hlog] <;>
    rfl

theorem acceptChildRekey_sim {x : Msg} {child : ChildSA} {req : ChildRekeyRequest} {prop : Proposal}
    {suite : EspSuite} (hreq : x.flags.isResponse = false)
    (hexchange : x.exchange = exchangeCreateChildSA) (hdp : d.s.dataPlane = true)
    (hpending : (d.view (.serving x)).rekeying = false) (hchild : d.s.child = some child)
    (hinner : childRekeyRequestPayloads x.inner = .ok req)
    (hselect : selectProposal req.sa d.s.enabledESPSuites ((req.ke.map KEPayload.group).getD 0) =
      some (prop, suite))
    (hstale : d.s.childReestablish = true → r.stale) :
    Sim c r d (.serving x) (acceptChildRekey c env x.slot x.msgID child req prop suite)
      fun _ => Answered := by
  obtain ⟨hsuite, -, -, hlen, -⟩ := selectProposal_eq_some hselect
  obtain ⟨serverNewSPI, hspi⟩ := uint32_ok (b := prop.spi) (by rw [hlen, spiLen_espSuite])
  refine Sim.lift_bind hspi ?_
  refine (childRekeyPFS_sim req.ke hreq hexchange).bind ?_ fun _ _ _ hQ => hQ
  rintro pfs d₁ h₁ ⟨hu₁, hpfs⟩
  obtain rfl := hu₁.hand
  refine Sim.orNotify_bind (Silent.randBytes 4) hreq hexchange rfl (Nat.zero_le 2)
    (fun _ _ _ hQ => hQ) fun newSPI d₂ hnewSPI hu₂ => ?_
  have hnewLen := length_of_randBytes hnewSPI
  obtain ⟨newInSPI, hnew⟩ := uint32_ok (b := newSPI) (by omega)
  refine Sim.lift_bind hnew ?_
  refine Sim.orNotify_bind (Silent.randBytes nonceLen) hreq hexchange rfl (Nat.zero_le 2)
    (fun _ _ _ hQ => hQ) fun nr d₃ hnr hu₃ => ?_
  refine Sim.session_bind (Sim.responseFlags_bind fun ctx hctx => ?_)
  have hs₃ : d₃.s = d.s := hu₃.session.trans (hu₂.session.trans hu₁.session)
  have hview : d₃.view (.serving x) = d.view (.serving x) := by
    rw [hu₃.view, hu₂.view, hu₁.view]
  dsimp only
  rcases (encoded_encodeIn x.slot exchangeCreateChildSA (answerFlags ctx) x.msgID
      (childRekeyAnswer d₃.s.cfg.requestIPv6 prop.number suite newSPI nr (pfs.map Prod.fst) req)
      d₃).orUnanswered with ⟨e, d₄, hon, hrun, hun⟩ | ⟨raw, d₄, n, n', ctx', hon, hctx', hraw, hs, hlog⟩
  · exact Refines.failed (.serving x) (Proc.bind_of_error hon) hrun
      fun text ht => ⟨rfl, fun _ => hun text ht⟩
  · obtain rfl : ctx' = ctx := Option.some.inj (hctx'.symm.trans hctx)
    obtain ⟨keys, hkeys⟩ := ctx'.sa.deriveChildKeys_ok c ((pfs.map Prod.snd).getD []) req.ni nr
      (keyLen_espSuites (mem_of_mem_enabledSuites hsuite))
    unfold Sim Refines
    rw [Proc.bind_of_ok hon, hctx]
    dsimp only
    rw [Proc.bind_of_ok (show Proc.lift (ctx'.sa.deriveChildKeys c ((pfs.map Prod.snd).getD []) req.ni
      nr suite.encrKeyLen suite.integKeyLen) d₄ = (.ok keys, d₄) by rw [hkeys]; rfl)]
    refine ⟨{ msg := some x, opened := true }, .single ?_, Ends.intro (fun _ => ⟨rfl, fun hb => by cases hb⟩) _⟩
    have haccept : AcceptsChild c (d.view (.serving x)) ctx'.sa x.inner
        (childRekeyAnswer d₃.s.cfg.requestIPv6 prop.number suite newSPI nr (pfs.map Prod.fst) req)
        { newInSPI, newOutSPI := serverNewSPI, oldInSPI := child.initiatorSPI, suite := suite.id,
          outEncr := keys.encrRI, outInteg := keys.integRI,
          inEncr := keys.encrIR, inInteg := keys.integIR } := by
      rw [hs₃]
      exact .intro ⟨child, hchild, rfl⟩ hinner hselect hspi hpfs hnew hnewLen
        (length_of_randBytes hnr) hkeys
    have hmove : Move c r (d.view (.serving x)) _ :=
      Move.accept ⟨rfl, rfl, rfl, hreq⟩ hexchange (Drive.view_ctx (by rw [← hs₃, hctx])) hpending
        (fun hflag => hstale (by simpa [Drive.view, Hand.serving] using hflag)) haccept hraw
    rw [hview, installAnswered_view (by rw [hs]; exact hs₃ ▸ hdp)]
    convert hmove using 1
    cases hslot : x.slot <;>
      simp only [Machine.record, Machine.push, Drive.view, hs, hlog, Session.withSeq, Option.map_map,
        hs₃, hu₃.log, hu₂.log, hu₁.log, hslot] <;>
      rfl

/-- A notify before a call returns. -/
theorem Sim.notify_then {α : Type} {x : Msg} {protocol : ProtocolID} {type : NotifyType} {g : Go α}
    (hreq : x.flags.isResponse = false) (hexchange : x.exchange = exchangeCreateChildSA)
    (herror : type.isError = true) :
    Sim c r d (.serving x) (sendNotifyResponse c env x.slot x.msgID protocol type [] >>= fun _ =>
      Proc.lift g) fun _ => Answered := by
  have hsend : Sim c r d (.serving x) (sendNotifyResponse c env x.slot x.msgID protocol type [])
      Processed := sendNotifyResponse_sim hreq hexchange herror (Nat.zero_le 2)
  exact hsend.bind (fun _ _ _ hQ => Refines.lift (Ends.intro (fun _ => hQ) _))
    fun _ _ _ hQ => hQ.answered

theorem sendInvalidKEPayload_sim {x : Msg} (hreq : x.flags.isResponse = false)
    (hexchange : x.exchange = exchangeCreateChildSA) :
    Sim c r d (.serving x) (sendInvalidKEPayload c env x.slot x.msgID) fun _ => Answered := by
  have hsend : Sim c r d (.serving x) (sendInvalidKEPayload c env x.slot x.msgID) Processed :=
    sendNotifyResponse_sim hreq hexchange rfl (Nat.le_refl 2)
  exact hsend.weaken fun _ _ _ hQ => hQ.answered

/-- Whether a request for a Child SA passes every check that is made before it is
accepted. -/
def Session.acceptable (s : Session) (inner : Payloads) : Bool :=
  s.child.isSome &&
    match childRekeyRequestPayloads inner with
    | .error _ => false
    | .ok req =>
        !(req.ke.any fun ke => !supportedDHGroup ke.group) &&
          (selectProposal req.sa s.enabledESPSuites ((req.ke.map KEPayload.group).getD 0)).isSome

theorem handleChildRekeyRequest_sim {x : Msg} (hreq : x.flags.isResponse = false)
    (hexchange : x.exchange = exchangeCreateChildSA) (hdp : d.s.dataPlane = true)
    (hpending : (d.view (.serving x)).rekeying = false)
    (hstale : d.s.acceptable x.inner = true → d.s.childReestablish = true → r.stale) :
    Sim c r d (.serving x) (handleChildRekeyRequest c env x.msgID x.inner x.slot)
      fun _ => Answered := by
  refine Sim.session_bind ?_
  cases hchild : d.s.child with
  | none => exact Sim.notify_then hreq hexchange rfl
  | some child =>
      cases hinner : childRekeyRequestPayloads x.inner with
      | error e => exact Sim.notify_then hreq hexchange rfl
      | ok req =>
          dsimp only
          by_cases hgroup : (req.ke.any fun ke => !supportedDHGroup ke.group) = true
          · rw [if_pos hgroup]
            exact sendInvalidKEPayload_sim hreq hexchange
          rw [if_neg hgroup]
          cases hselect : selectProposal req.sa d.s.enabledESPSuites
              ((req.ke.map KEPayload.group).getD 0) with
          | some choice =>
              refine acceptChildRekey_sim hreq hexchange hdp hpending hchild hinner hselect
                (hstale ?_)
              simp only [Session.acceptable, hchild, hinner, hselect, Bool.eq_false_iff.mpr hgroup]
              rfl
          | none =>
              dsimp only
              split
              · exact sendInvalidKEPayload_sim hreq hexchange
              · exact Sim.notify_then hreq hexchange rfl

/-- An encoding that fails is answered with a notify. -/
theorem Sim.encode_failed {α β : Type} {x : Msg} {encode : Drv α} {f : α → Drv β} {e : Fault}
    {d' : Drive} {protocol : ProtocolID} {type : NotifyType} (hx : encode d = (.error e, d'))
    (hview : d'.view (.serving x) = d.view (.serving x)) (hreq : x.flags.isResponse = false)
    (hexchange : x.exchange = exchangeCreateChildSA) (herror : type.isError = true) :
    Sim c r d (.serving x)
      (encode.onError (sendNotifyResponse c env x.slot x.msgID protocol type []) >>= f)
      fun _ => Answered := by
  have hencode : Sim c r d (.serving x) encode fun res _ h' =>
      (∃ text, res = .error text) ∧ h' = .serving x := by
    refine Refines.failed (.serving x) hx ?_ fun text _ => ⟨⟨text, rfl⟩, rfl⟩
    rw [hview]
  refine Refines.bind (hencode.onError (S := Answered) ?_) ?_ fun _ _ _ hQ => hQ
  · rintro text d' h' ⟨-, rfl⟩
    have hsend : Sim c r d' (.serving x) (sendNotifyResponse c env x.slot x.msgID protocol type [])
        Processed := sendNotifyResponse_sim hreq hexchange herror (Nat.zero_le 2)
    exact hsend.weaken fun _ _ _ hQ => hQ.answered
  · rintro a d' h' ⟨⟨text, hres⟩, -⟩
    cases hres

/-- The state after a cutover. -/
theorem swapIKE_apply (env : Env) (newIKE : IKESA) (spii spir : UInt64) (d : Drive) :
    ∃ d', swapIKE env newIKE spii spir d = (.ok (), d') ∧
      ∀ h, d'.view h = (d.view h).swap { sa := newIKE, spii, spir } := by
  unfold swapIKE
  rw [run_setSession_bind, run_session_bind]
  obtain ⟨t, d', hx, hs, hlog⟩ := jitteredDeadline_ok env _ _ _
  rw [Proc.bind_of_ok hx]
  refine ⟨_, rfl, fun h => ?_⟩
  simp only [Drive.view, hs, hlog, Machine.swap]
  rfl

theorem acceptIKERekey_sim {x : Msg} {saP : SAPayload} {ni : Bytes} {kei : KEPayload}
    {prop : Proposal} {suite : IkeSuite} (hreq : x.flags.isResponse = false) (hslot : x.slot = .cur)
    (hexchange : x.exchange = exchangeCreateChildSA)
    (hpending : (d.view (.serving x)).rekeying = false)
    (hinner : ikeRekeyPayloads x.inner = .ok (saP, ni, kei))
    (hselect : selectProposal saP d.s.enabledIKESuites kei.group = some (prop, suite)) :
    Sim c r d (.serving x) (acceptIKERekey c env x.msgID ni kei prop suite) fun _ => Answered := by
  obtain ⟨-, -, -, hlen, -⟩ := selectProposal_eq_some hselect
  obtain ⟨spii, hspi⟩ := uint64_ok (b := prop.spi) (by rw [hlen, spiLen_ikeSuite])
  unfold acceptIKERekey
  rw [← hslot]
  refine Sim.lift_bind hspi ?_
  refine Sim.orNotify_bind (Silent.newDHFor _) hreq hexchange rfl (Nat.zero_le 2)
    (fun _ _ _ hQ => hQ) fun dh d₁ hdh hu₁ => ?_
  refine Sim.orNotify_bind (Silent.lift _) hreq hexchange rfl (Nat.zero_le 2)
    (fun _ _ _ hQ => hQ) fun shared d₂ hshared hu₂ => ?_
  refine Sim.orNotify_bind Silent.randUint64 hreq hexchange rfl (Nat.zero_le 2)
    (fun _ _ _ hQ => hQ) fun spir d₃ _ hu₃ => ?_
  refine Sim.orNotify_bind (Silent.randBytes nonceLen) hreq hexchange rfl (Nat.zero_le 2)
    (fun _ _ _ hQ => hQ) fun nr d₄ hnr hu₄ => ?_
  refine Sim.session_bind ?_
  refine Sim.orNotify_bind (Silent.lift _) hreq hexchange rfl (Nat.zero_le 2)
    (fun _ _ _ hQ => hQ) fun newIKE d₅ hnew hu₅ => ?_
  refine Sim.responseFlags_bind fun ctx hctx => ?_
  have hs₅ : d₅.s = d.s := hu₅.session.trans (hu₄.session.trans (hu₃.session.trans
    (hu₂.session.trans hu₁.session)))
  have hview : d₅.view (.serving x) = d.view (.serving x) := by
    rw [hu₅.view, hu₄.view, hu₃.view, hu₂.view, hu₁.view]
  have henc : Encoded c x.slot exchangeCreateChildSA (answerFlags ctx) x.msgID
      (ikeRekeyAnswer prop.number suite (putUint64 spir) nr dh) d₅ (encodeIn c env _ _ _ _ _ d₅) :=
    encoded_encodeIn x.slot exchangeCreateChildSA (answerFlags ctx) x.msgID _ d₅
  dsimp only
  generalize hx : encodeIn c env x.slot exchangeCreateChildSA (answerFlags ctx) x.msgID
    (ikeRekeyAnswer prop.number suite (putUint64 spir) nr dh) d₅ = res at henc
  cases henc with
  | failed e d₆ n n' hs hlog =>
      exact Sim.encode_failed hx (Drive.view_of_withSeq hs hlog _) hreq hexchange rfl
  | done raw d₆ n n' ctx' hctx' hraw hs hlog =>
      obtain rfl : ctx' = ctx := Option.some.inj (hctx'.symm.trans hctx)
      rw [hslot] at hctx
      cases hctx
      obtain ⟨rand, hrand⟩ := newDH_of_newDHFor hdh
      have haccept : AcceptsIKE c (d.view (.serving x)) x.inner
          (ikeRekeyAnswer prop.number suite (putUint64 spir) nr dh) { sa := newIKE, spii, spir } := by
        refine .intro hinner hselect hspi hrand (wrapErr_eq_ok.mp (congrArg Prod.fst hshared))
          (length_of_randBytes hnr) ?_
        have hskd : d₄.s = d.s := hu₅.session.symm.trans hs₅
        rw [hskd] at hnew
        exact congrArg Prod.fst hnew
      have hmove : Move c r (d.view (.serving x)) _ :=
        Move.acceptIKE ⟨rfl, rfl, rfl, hreq⟩ hslot hexchange (congrArg Machine.ike hview) hpending haccept
          hraw
      unfold Sim Refines
      rw [Proc.bind_of_ok (Proc.onError_of_ok hx), run_recordPeerResponse_bind, run_emit_bind]
      obtain ⟨d₇, hswap, hview₇⟩ := swapIKE_apply env newIKE spii spir { d₆ with
        s := d₆.s.record x.slot x.msgID raw
        log := .cutover .responder x.msgID { sa := newIKE, spii, spir } ::
          .answered x.slot x.msgID raw :: d₆.log }
      rw [Proc.bind_of_ok hswap, run_setSession_bind]
      refine ⟨{ opened := true }, .single ?_, Ends.intro (fun _ => ⟨rfl, fun hb => by cases hb⟩) _⟩
      rw [hview]
      change Move c r _ (d₇.view { opened := true })
      rw [hview₇]
      convert hmove using 1
      simp only [Session.record, Machine.record, Machine.push, Machine.swap, Drive.view, hs, hlog,
        hslot, Session.withSeq, Option.map_map, hs₅, hu₅.log, hu₄.log, hu₃.log, hu₂.log, hu₁.log]
      rfl

theorem handleIKERekeyRequest_sim {x : Msg} (hreq : x.flags.isResponse = false)
    (hslot : x.slot = .cur) (hexchange : x.exchange = exchangeCreateChildSA)
    (hpending : (d.view (.serving x)).rekeying = false) :
    Sim c r d (.serving x) (handleIKERekeyRequest c env x.msgID x.inner) fun _ => Answered := by
  have hinvalidKE : Sim c r d (.serving x) (sendInvalidKEPayload c env .cur x.msgID)
      fun _ => Answered := hslot ▸ sendInvalidKEPayload_sim hreq hexchange
  refine Sim.session_bind ?_
  cases hinner : ikeRekeyPayloads x.inner with
  | error e =>
      rw [← hslot]
      exact Sim.notify_then hreq hexchange rfl
  | ok ps =>
      obtain ⟨saP, ni, kei⟩ := ps
      dsimp only
      split
      · exact hinvalidKE
      · cases hselect : selectProposal saP d.s.enabledIKESuites kei.group with
        | some choice => exact acceptIKERekey_sim hreq hslot hexchange hpending hinner hselect
        | none =>
            dsimp only
            split
            · exact hinvalidKE
            · rw [← hslot]
              exact Sim.notify_then hreq hexchange rfl

theorem handleCreateChildSA_sim {x : Msg} (hreq : x.flags.isResponse = false)
    (hexchange : x.exchange = exchangeCreateChildSA) (hdp : d.s.dataPlane = true)
    (hstale : (d.view (.serving x)).rekeying = false → isIKERekey x.inner = false →
      d.s.acceptable x.inner = true → d.s.childReestablish = true → r.stale) :
    Sim c r d (.serving x) (handleCreateChildSA c env x.msgID x.inner x.slot) Processed := by
  have htemporary : Sim c r d (.serving x) (sendTemporaryFailure c env x.slot x.msgID)
      Processed := sendNotifyResponse_sim hreq hexchange rfl (Nat.zero_le 2)
  refine Sim.session_bind ?_
  by_cases hrekeying : (d.s.pending.any fun p => p.kind.isRekey) = true
  · rw [if_pos hrekeying]
    exact htemporary
  rw [if_neg hrekeying]
  have hpending : (d.view (.serving x)).rekeying = false := by
    simpa [Machine.rekeying, Drive.view, Option.any_map] using hrekeying
  by_cases hike : isIKERekey x.inner = true
  · rw [if_pos hike]
    cases hslot : x.slot with
    | old =>
        rw [hslot] at htemporary
        exact htemporary
    | cur =>
        exact (handleIKERekeyRequest_sim hreq hslot hexchange hpending).attempt_bind
          (fun _ _ _ hQ => .pure hQ) fun _ _ _ hQ => .pure hQ
  · rw [if_neg hike]
    exact (handleChildRekeyRequest_sim hreq hexchange hdp hpending
      (hstale hpending (Bool.eq_false_iff.mpr hike))).attempt_bind
      (fun _ _ _ hQ => .pure hQ) fun _ _ _ hQ => .pure hQ

/-! ## Deletes of the peer -/

theorem Requested.pending {kind : ExchangeKind → Prop} {d' : Drive} {h' : Hand}
    (hreq : Requested kind h (.ok ()) d' h') : h' = h ∧ ∃ p, d'.s.pending = some p ∧ kind p.kind :=
  ⟨hreq.1, hreq.2 rfl⟩

/-- The call has no error of its own, and the hand is `h` after it. -/
def Returns {α : Type} (h : Hand) : Except String α → Drive → Hand → Prop
  | .ok _, _, h' => h' = h
  | .error _, _, _ => False

/-- A Child SA is asked for in place of a deleted one.  `next` is what the loop does
when that cannot be done now. -/
theorem reestablish_sim {next : Session → Session} (h' : Hand) (hidle : d.s.pending = none)
    (hflag : (d.view h).reestablish = true) (hfree : h.opened = true → h.busy = true)
    (hmsg : h'.msg = h.msg) (hopened : h'.opened = h.opened) (hbusy : h'.busy = h.busy)
    (howed : h'.owed = false)
    (hfailed : ∀ d' : Drive, Drive.view { d' with s := next d'.s } h' = d'.view h) :
    Sim c r d h (Proc.attempt (initiateChildRekey c env true) >>= fun err =>
      match err with
      | some _ => setSession next
      | none => setSession fun s => { s with childReestablish := false, nextChildReestablish := 0 })
      (Returns h') := by
  refine (initiateChildRekey_sim hidle hfree hflag).attempt_bind ?_ ?_
  · rintro ⟨⟩ d₁ h₁ hreq
    obtain ⟨rfl, p, hp, ctx, hkind, hctx⟩ := hreq.pending
    refine Sim.setSession h' (.single ?_) rfl
    have hpending : (d₁.view h₁).pending = some (p.msgID, .childRekey ctx) := by
      simp only [Drive.view, hp, Option.map_some, hkind]
    have hmove : Move c r (d₁.view h₁) _ := Move.lower hpending hctx
    convert hmove using 1
    simp only [Drive.view, hmsg, hopened, hbusy, howed, Bool.or_false]
  · rintro text d₁ h₁ ⟨rfl, -⟩
    refine Sim.setSession h' ?_ rfl
    rw [hfailed]

theorem handleInboundChildDelete_sim (del : DeletePayload)
    (hfree : h.opened = true → h.busy = true) (howed : h.owed = false) :
    Sim c r d h (handleInboundChildDelete c env del) (Returns h) := by
  refine Sim.session_bind ?_
  cases hchild : d.s.child with
  | none => exact Refines.pure rfl
  | some child =>
      dsimp only
      split
      · exact Refines.pure rfl
      -- the machine owes a Child SA from here on, the session when it is done
      refine Sim.emit_bind { h with owed := true } (.single ?_) ?_
      · have hmove : Move c r (d.view h) _ := Move.childDeleted hchild
        convert hmove using 1
        simp only [Drive.view, Machine.push, Bool.or_true]
        rfl
      cases hpending : d.s.pending with
      | some p =>
          refine Sim.setSession h ?_ rfl
          simp only [Drive.view, howed, Bool.or_true, Bool.or_false]
          exact .refl
      | none =>
          refine reestablish_sim h hpending (by simp [Drive.view]) hfree rfl rfl rfl howed
            fun d' => ?_
          simp only [Drive.view, howed, Bool.or_true, Bool.or_false]

theorem handleDeletes_sim {slot : Slot} (hfree : h.opened = true → h.busy = true)
    (howed : h.owed = false) (ps : Payloads) (teardown : Bool) :
    Sim c r d h (handleDeletes c env slot ps teardown) (Returns h) := by
  induction ps generalizing d teardown with
  | nil => exact Refines.pure rfl
  | cons p ps ih =>
      cases p <;> unfold handleDeletes
      case delete del =>
        split
        · exact ih _
        · split
          · refine (handleInboundChildDelete_sim del hfree howed).bind ?_ fun _ _ _ hQ => hQ.elim
            rintro ⟨⟩ d' h' rfl
            exact ih _
          · exact ih _
      all_goals exact ih _

theorem handleInformationalRequest_sim {x : Msg} (hreq : x.flags.isResponse = false)
    (hexchange : x.exchange = exchangeInformational) :
    Sim c r d (.serving x) (handleInformationalRequest c env x.msgID x.inner x.slot)
      Processed := by
  refine (handleDeletes_sim (fun _ => rfl) rfl x.inner false).bind ?_ fun _ _ _ hQ => hQ.elim
  rintro teardown d' h' rfl
  refine Sim.responseFlags_bind fun ctx hctx => ?_
  have hanswer : Sim c r d' (.serving x) (answerWith env x.slot x.msgID
      (encodeEmptyIn c env x.slot exchangeInformational (answerFlags ctx) x.msgID))
      Processed := by
    rw [← hexchange]
    exact answerWith_sim hreq hctx (encoded_encodeEmptyIn _ _ _ _ _) (hexchange ▸ .ack)
  exact hanswer.bind (fun _ _ _ hQ => .pure hQ) fun _ _ _ hQ => hQ.elim

end

end GoIpsec.Session
