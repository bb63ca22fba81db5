import GoIpsec.Session.AuthSound
import GoIpsec.Session.Inserted

/-!
# Injected datagrams in IKE_AUTH

A datagram that fails the integrity check of the IKE SA is dropped by the driver, but not
by the exchanges of IKE_AUTH: they take the first datagram with the right header and end
with an error if it does not decode.

So beside a run in which every request is answered, the run with the injected datagrams
has the same outcome exactly if none of them is by its header the response that is
awaited where it stands (`ikeAuth_injected_iff`).
-/

set_option linter.dupNamespace false

namespace GoIpsec.Session

open Golang Ikemsg Ikesa

/-! ## Requests and responses -/

def Moment.isSealed : Moment → Bool
  | .sealed _ _ _ _ _ _ => true
  | _ => false

/-- The number of requests. -/
def asked (log : List Moment) : Nat := log.countP Moment.isSealed

/-- Every request was answered. -/
def AllAnswered (log : List Moment) : Prop := asked log = (responses log).length

/-- Every request but the last one was answered. -/
def Open (log : List Moment) : Prop := asked log = (responses log).length + 1

section

variable {log : List Moment}

theorem AllAnswered.sealed (h : AllAnswered log) (ctx : IkeCtx) (t : ExchangeType) (f : Flags)
    (k : UInt32) (inner : Payloads) (raw : Bytes) :
    Open (.sealed ctx t f k inner raw :: log) := by
  rw [Open, asked, List.countP_cons_of_pos rfl]
  exact congrArg (· + 1) h

theorem Open.heard (h : Open log) (inner : Payloads) : AllAnswered (.heard inner :: log) := by
  have hlen : (responses (.heard inner :: log)).length = (responses log).length + 1 := by
    simp [responses, Moment.heard?]
  rw [AllAnswered, hlen, asked, List.countP_cons_of_neg (by simp [Moment.isSealed])]
  exact h

theorem AllAnswered.answered (h : AllAnswered log) (req : Eap.Packet) (m : Eap.MSCHAPv2) :
    AllAnswered (.answered req m :: log) := by
  rw [AllAnswered, asked, List.countP_cons_of_neg (by simp [Moment.isSealed])]
  exact h

theorem AllAnswered.derived (h : AllAnswered log) (m : Eap.MSCHAPv2) (msk : Bytes) :
    AllAnswered (.derived m msk :: log) := by
  rw [AllAnswered, asked, List.countP_cons_of_neg (by simp [Moment.isSealed])]
  exact h

end

/-- A datagram that the IKE SA of the session does not decode. -/
def Forged (c : Crypto) (s : Handshake) (raw : Bytes) : Prop :=
  ∀ sa ike, s.ikeSA = some sa → Dial.unframe s.nattMode raw = .ok (some ike) →
    ∀ r, (decodeSKWith c sa ike).1 ≠ .ok r

theorem Forged.of_fixed {c : Crypto} {s s' : Handshake} {raw : Bytes} (h : s'.fixed = s.fixed)
    (hraw : Forged c s raw) : Forged c s' raw := by
  intro sa' ike hsa' hike r
  obtain ⟨sa, hsa, heq⟩ := exists_ikeSA_of_fixed h hsa'
  have hnatt : s'.nattMode = s.nattMode := (congrArg Handshake.nattMode h :)
  have hdecode : decodeSKWith c sa' ike = decodeSKWith c sa ike :=
    (congrArg (decodeSKWith c · ike) heq :)
  rw [hdecode]
  exact hraw sa ike hsa (hnatt ▸ hike) r

/-- The runs of IKE_AUTH of a session: an injected datagram that is taken leaves the request
open. -/
def authComparison (c : Crypto) (s₀ : Handshake) : Comparison where
  natt := s₀.nattMode
  kind := Forged c s₀
  next k := k + 1
  awaits s := s.messageID
  Struck u ok d₁ d₂ :=
    ok = false ∧ Open d₁.log ∧ d₁.log <:+ d₂.log ∧ d₂.inbox.length < u.genuine.length
  Lost d₂ := Open d₂.log
  struck_inbox h := h.2.2.2
  struck_onward h hok _ h₂ := by
    obtain ⟨hfail, hopen, hsuffix, hless⟩ := h
    obtain ⟨hfail', rfl⟩ := hok hfail
    exact ⟨hfail', hopen, hsuffix.trans h₂.log, h₂.inbox.trans_lt hless⟩

/-- Between two exchanges. -/
def AtRest (s₀ s : Handshake) (log : List Moment) : Prop := s.fixed = s₀.fixed ∧ AllAnswered log

/-- In an exchange. -/
def Waiting (s₀ : Handshake) (k : UInt32) (s : Handshake) (log : List Moment) : Prop :=
  s.fixed = s₀.fixed ∧ Open log ∧ s.messageID = k

section

variable {c : Crypto} {w : World} {s₀ : Handshake}

/-! ## One exchange -/

theorem encodeSK_deaf (t : ExchangeType) (f : Flags) (k : UInt32) (inner : Payloads) :
    Deaf (Dial.encodeSK c w t f k inner) := by
  intro d inbox taken
  unfold Dial.encodeSK Dialing.fed
  dsimp only
  cases d.s.ikeSA with
  | none => rfl
  | some ike =>
      dsimp only
      cases (encodeSKWith c ike (w.rand d.reads) d.s.initiatorSPI d.s.responderSPI t f k inner).1 with
      | error e => rfl
      | ok raw => rfl

theorem encodeSK_onward (t : ExchangeType) (f : Flags) (k : UInt32) (inner : Payloads) :
    Onward (Dial.encodeSK c w t f k inner) := by
  intro d
  unfold Dial.encodeSK
  split
  · exact .refl d
  · dsimp only
    split
    · exact ⟨List.suffix_rfl, le_rfl, List.Subset.refl _⟩
    · exact ⟨List.suffix_cons _ _, le_rfl, List.Subset.refl _⟩

theorem encodeSK_comparable (a : Handshake) (t : ExchangeType) (f : Flags) (k : UInt32)
    (inner : Payloads) :
    Comparable (authComparison c s₀) (fun s log => AtRest s₀ s log ∧ a = s)
      (fun _ => Waiting s₀ a.messageID) (Dial.encodeSK c w t f k inner) := by
  refine .deaf (encodeSK_deaf t f k inner) (encodeSK_onward t f k inner) ?_
  rintro d req d' ⟨⟨hfixed, hans⟩, rfl⟩ h
  unfold Dial.encodeSK at h
  cases hike : d.s.ikeSA with
  | none =>
      simp only [hike] at h
      cases congrArg Prod.fst h
  | some ike =>
      simp only [hike] at h
      obtain ⟨n, hn⟩ := encodeSKWith_snd c ike (w.rand d.reads) d.s.initiatorSPI d.s.responderSPI t f
        k inner
      split at h
      · cases congrArg Prod.fst h
      · cases h
        refine ⟨⟨?_, hans.sealed _ _ _ _ _ _, rfl⟩, rfl⟩
        rw [← hfixed]
        simp only [Handshake.fixed, Dialing.spend, hn, hike, Option.map_some]

/-- What follows on a response: it is decoded, and the counter goes on. -/
def decodeNext (c : Crypto) (what : String) (raw : Bytes) : Dial Payloads := do
  let resp ← Proc.wrap what (Dial.decodeSK c raw)
  Dial.setSession fun s => { s with messageID := s.messageID + 1 }
  return resp

/-- The exchange, step by step. -/
theorem exchangeNext_eq (what : String) (inner : Payloads) :
    Dial.exchangeNext c w what inner = (do
      let s ← Dial.session
      let ike ← Proc.wrap what (Dial.deref Handshake.ikeSA)
      let req ← Proc.wrap what
        (Dial.encodeSK c w exchangeIKEAuth (ikeRoleBit ike.role) s.messageID inner)
      let raw ← Proc.wrap what (Dial.exchange w req s.messageID)
      decodeNext c what raw) := by
  simp only [Dial.exchangeNext, Dial.exchangeSK, Proc.wrap_bind, Proc.bind_assoc]
  rfl

/-- A response decodes, or nothing changes. -/
theorem decodeNext_cases (what : String) (raw : Bytes) (d : Dialing) :
    (∃ e, ∀ inbox taken, decodeNext c what raw (d.fed inbox taken) = (.error e, d.fed inbox taken)) ∨
    ∃ sa hdr inner, d.s.ikeSA = some sa ∧ (decodeSKWith c sa raw).1 = .ok (hdr, inner) ∧
      ∀ inbox taken, decodeNext c what raw (d.fed inbox taken) =
        (.ok inner, Dialing.fed { d with s := { d.s with messageID := d.s.messageID + 1 }
                                         log := .heard inner :: d.log } inbox taken) := by
  have herr {e : Fault} (h : ∀ inbox taken,
      Dial.decodeSK c raw (d.fed inbox taken) = (.error e, d.fed inbox taken)) :
      ∃ e', ∀ inbox taken,
        decodeNext c what raw (d.fed inbox taken) = (.error e', d.fed inbox taken) := by
    obtain ⟨e', he'⟩ : ∃ e', wrapErr what (.error e : Go Payloads) = .error e' := by
      cases e <;> exact ⟨_, rfl⟩
    refine ⟨e', fun inbox taken => Proc.bind_of_error ?_⟩
    rw [Proc.wrap, h, he']
  cases hsa : d.s.ikeSA with
  | none =>
      refine .inl (herr (e := .panic) fun inbox taken => ?_)
      simp only [Dial.decodeSK, Dialing.fed, hsa]
  | some sa =>
      cases hdec : (decodeSKWith c sa raw).1 with
      | error e =>
          refine .inl (herr (e := e) fun inbox taken => ?_)
          simp only [Dial.decodeSK, Dialing.fed, hsa, hdec]
      | ok r =>
          obtain ⟨hdr, inner⟩ := r
          refine .inr ⟨sa, hdr, inner, rfl, hdec, fun inbox taken => ?_⟩
          have hok : Proc.wrap what (Dial.decodeSK c raw) (d.fed inbox taken) =
              (.ok inner, Dialing.fed { d with log := .heard inner :: d.log } inbox taken) := by
            rw [Proc.wrap_eq_ok]
            simp only [Dial.decodeSK, Dialing.fed, hsa, hdec]
          rw [decodeNext, Proc.bind_of_ok hok]
          rfl

theorem decodeNext_onward (what : String) (raw : Bytes) : Onward (decodeNext c what raw) := by
  intro d
  rcases decodeNext_cases (c := c) what raw d with ⟨e, h⟩ | ⟨sa, hdr, inner, -, -, h⟩
  · rw [show decodeNext c what raw d = _ from h d.inbox d.taken]
    exact .refl d
  · rw [show decodeNext c what raw d = _ from h d.inbox d.taken]
    exact ⟨List.suffix_cons _ _, le_rfl, List.Subset.refl _⟩

theorem awaitResponse_beside {d : Dialing} {t : Stream} {tk tk' : List Nat} {k : UInt32}
    (what : String) (req : Bytes) (ht : t.Inserts (Forged c s₀)) (hd : Waiting s₀ k d.s d.log) :
    Beside (authComparison c s₀) (Proc.wrap what (Dial.exchange w req k) >>= decodeNext c what) d t
      tk tk' := by
  obtain ⟨hfixed, hopen, rfl⟩ := hd
  have hnatt : d.s.nattMode = s₀.nattMode := (congrArg Handshake.nattMode hfixed :)
  have hstep {d₁ d₁' : Dialing} {ike : Bytes}
      (h : Dial.exchange w req d.s.messageID d₁ = (.ok ike, d₁')) :
      (Proc.wrap what (Dial.exchange w req d.s.messageID) >>= decodeNext c what) d₁ =
        decodeNext c what ike d₁' :=
    Proc.bind_of_ok (Proc.wrap_eq_ok.mpr h)
  rcases hg : Dial.exchange w req d.s.messageID (d.fed t.genuine tk') with ⟨r, d₂⟩
  have hlog₂ : d₂.log = d.log := by
    obtain ⟨sent, inbox, h⟩ :=
      Dial.exchange_frame (w := w) req d.s.messageID (d.fed t.genuine tk')
    rw [hg] at h
    exact (congrArg Dialing.log h :)
  have hopen₂ : Open d₂.log := hlog₂ ▸ hopen
  cases r with
  | error e =>
      obtain ⟨e', he'⟩ : ∃ e', wrapErr what (.error e : Go Bytes) = .error e' := by
        cases e <;> exact ⟨_, rfl⟩
      have hwrap : Proc.wrap what (Dial.exchange w req d.s.messageID) (d.fed t.genuine tk') =
          (.error e', d₂) := by
        rw [Proc.wrap, hg, he']
      exact .lost (Proc.bind_of_error hwrap) hopen₂
  | ok ike =>
      have htwo : Exchanges d.s.messageID d t tk tk' ike d₂
          (Dial.exchange w req d.s.messageID (d.fed t.whole tk)) := exchange_twofold ht hg
      cases htwo with
      | alike split quiet hraw whole genuine =>
          rename_i l t' raw sent
          subst genuine
          rw [hnatt] at quiet hraw
          obtain ⟨hinert, hawaited⟩ : Inert s₀.nattMode (· + 1) d.s.messageID
                (l ++ [(.datagram raw, false)]) ∧
              awaited s₀.nattMode (· + 1) d.s.messageID (l ++ [(.datagram raw, false)]) =
                d.s.messageID + 1 := quiet.inert_concat (responds_of_matching hraw)
          have hsplit : t = (l ++ [(.datagram raw, false)]) ++ t' := by
            rw [split, List.append_assoc]
            rfl
          rcases decodeNext_cases (c := c) what ike { d with sent } with
            ⟨e, h⟩ | ⟨sa, hdr, inner, -, -, h⟩
          · exact .alike hsplit hinert ((hstep whole).trans (h _ _)) ((hstep hg).trans (h _ _))
              (fun _ hr => by cases hr) fun n hn => .inl hn
          · exact .alike hsplit hinert ((hstep whole).trans (h _ _)) ((hstep hg).trans (h _ _))
              (fun _ _ => hawaited.symm) fun n hn => .inl hn
      | struck split quiet hraw whole =>
          rename_i l t' raw ike' sent
          subst split
          have hless := length_lt_of_struck quiet hg
          have hlater := decodeNext_onward (c := c) what ike d₂
          obtain ⟨raw', hraw', hforged⟩ := ht _ (List.mem_append_right l List.mem_cons_self)
          cases hraw'
          have hunframe := (Dial.matching_eq_some hraw).1
          rw [hnatt] at quiet hraw
          obtain ⟨hinert, hawaited⟩ : Inert s₀.nattMode (· + 1) d.s.messageID l ∧
              awaited s₀.nattMode (· + 1) d.s.messageID l = d.s.messageID := quiet.inert
          refine .struck rfl hinert ?_ ?_
          · exact (congrArg (Arrival.responds s₀.nattMode · (.datagram raw)) hawaited).trans
              (responds_of_matching hraw)
          · rcases decodeNext_cases (c := c) what ike' { d with sent } with
              ⟨e, h⟩ | ⟨sa, hdr, inner, hsa, hdec, -⟩
            · rw [hstep whole, h, hstep hg]
              exact ⟨rfl, hopen, hlog₂ ▸ hlater.log, hlater.inbox.trans_lt hless⟩
            · exact absurd hdec (hforged.of_fixed hfixed sa ike' hsa hunframe _)

theorem exchangeNext_comparable (what : String) (inner : Payloads) :
    Comparable (authComparison c s₀) (AtRest s₀) (fun _ => AtRest s₀)
      (Dial.exchangeNext c w what inner) := by
  rw [exchangeNext_eq]
  refine .bind .session_eq fun s => .bind (.wrap (.deref _)) fun ike =>
    .bind (.wrap (encodeSK_comparable s _ _ _ _)) fun req => ?_
  refine ⟨fun d t tk tk' ht hd => awaitResponse_beside what req ht hd, ?_,
    .bind (.wrap (.exchange w req _)) fun raw => decodeNext_onward what raw⟩
  rintro d resp d' ⟨hfixed, hopen, -⟩ h
  obtain ⟨raw, d₁, hex, h⟩ := Proc.bind_eq_ok h
  obtain ⟨⟨sent, inbox, rfl⟩, -, -⟩ := Dial.exchange_eq_ok (Proc.wrap_eq_ok.mp hex)
  rcases decodeNext_cases (c := c) what raw { d with sent } with ⟨e, hrun⟩ | ⟨sa, hdr, inner, -, -, hrun⟩
  · cases congrArg Prod.fst (h.symm.trans (hrun inbox d.taken))
  · cases h.symm.trans (hrun inbox d.taken)
    exact ⟨hfixed, hopen.heard _⟩

/-! ## The whole of IKE_AUTH -/

theorem setSession_atRest {f : Handshake → Handshake} (hfixed : ∀ s, (f s).fixed = s.fixed)
    (hid : ∀ s, (f s).messageID = s.messageID) :
    Comparable (authComparison c s₀) (AtRest s₀) (fun _ => AtRest s₀) (Dial.setSession f) :=
  .setSession (fun s _ h => ⟨(hfixed s).trans h.1, h.2⟩) hid

theorem allocChildSPI_comparable :
    Comparable (authComparison c s₀) (AtRest s₀) (fun _ => AtRest s₀) (Dial.allocChildSPI w) :=
  .bind (.bind (.randRead w) fun _ => .lift _) fun _ => .bind (.lift _) fun _ =>
    .bind (setSession_atRest (fun _ => rfl) fun _ => rfl) fun _ => .pure _

theorem handleAuthResponse_comparable (ps : Payloads) :
    Comparable (authComparison c s₀) (AtRest s₀) (fun _ => AtRest s₀)
      (Dial.handleAuthResponse c w ps) := by
  refine .bind (.lift _) fun r => ?_
  cases r.idr with
  | none => exact .raise _
  | some idr =>
      refine .bind (setSession_atRest (fun _ => rfl) fun _ => rfl) fun _ => .bind .session fun s =>
        .bind (.lift _) fun leaf => ?_
      cases r.auth with
      | none => exact .raise _
      | some auth =>
          refine .bind (.deref _) fun ike => .bind (.lift _) fun _ => .bind (.lift _) fun o => ?_
          cases o with
          | none => exact .raise _
          | some req => exact .pure _

theorem answerEAP_comparable (m : Eap.MSCHAPv2) (req : Eap.Packet) :
    Comparable (authComparison c s₀) (AtRest s₀) (fun _ => AtRest s₀) (Dial.answerEAP w m req) :=
  .bind (.randRead w) fun _ => .bind (.lift _) fun _ =>
    .bind (.note fun _ _ h => ⟨h.1, h.2.answered _ _⟩) fun _ => .pure _

theorem eapRounds_comparable (n : Nat) (m : Eap.MSCHAPv2) (req : Eap.Packet) :
    Comparable (authComparison c s₀) (AtRest s₀) (fun _ => AtRest s₀)
      (Dial.eapRounds c w n m req) := by
  induction n generalizing m req with
  | zero => exact .raise _
  | succ n ih =>
      refine .ite (.ite (.raise _) (.pure _)) (.ite (.raise _) ?_)
      refine .bind (answerEAP_comparable m req) fun r => .bind (exchangeNext_comparable _ _) fun ps =>
        .bind (.lift _) fun _ => .bind (.lift _) fun o => ?_
      cases o with
      | none => exact .raise _
      | some next => exact ih r.2 next

theorem takeIDr_comparable (o : Option IDrPayload) :
    Comparable (authComparison c s₀) (AtRest s₀) (fun _ => AtRest s₀) (Dial.takeIDr o) := by
  unfold Dial.takeIDr
  cases o with
  | none => exact .pure _
  | some idr => exact setSession_atRest (fun _ => rfl) fun _ => rfl

theorem handleFinalAuthResponse_comparable (ps : Payloads) (secret : Bytes) :
    Comparable (authComparison c s₀) (AtRest s₀) (fun _ => AtRest s₀)
      (Dial.handleFinalAuthResponse c ps secret) := by
  refine .bind (.lift _) fun r => ?_
  cases r.auth with
  | none => exact .raise _
  | some auth =>
      exact .bind (takeIDr_comparable _) fun _ => .bind .session fun _ => .bind (.lift _) fun _ =>
        setSession_atRest (fun _ => rfl) fun _ => rfl

theorem ikeAuth_comparable :
    Comparable (authComparison c s₀) (AtRest s₀) (fun _ => AtRest s₀) (Dial.ikeAuth c w) := by
  refine .bind .session fun s => ?_
  cases s.ikeSA with
  | none => exact .raise _
  | some ike =>
      refine .ite ?_ ?_
      · exact .bind allocChildSPI_comparable fun _ => .bind .session fun _ => .bind (.deref _) fun _ =>
          .bind (exchangeNext_comparable _ _) fun _ => .bind (.lift _) fun _ =>
            handleFinalAuthResponse_comparable _ _
      · exact .bind allocChildSPI_comparable fun _ => .bind .session fun _ =>
          .bind (exchangeNext_comparable _ _) fun _ => .bind (handleAuthResponse_comparable _) fun _ =>
            .bind (eapRounds_comparable _ _ _) fun _ => .bind (.lift _) fun _ =>
              .bind (.note fun _ _ h => ⟨h.1, h.2.derived _ _⟩) fun _ => .bind .session fun _ =>
                .bind (.deref _) fun _ => .bind (exchangeNext_comparable _ _) fun _ =>
                  handleFinalAuthResponse_comparable _ _

/-! ## Counting -/

/-- The counter goes on with every response. -/
def Counted (k : UInt32) (d : Dialing) : Prop :=
  d.s.messageID = k + UInt32.ofNat (responses d.log).length

theorem exchangeNext_counted (k : UInt32) (what : String) (inner : Payloads) :
    Proc.Keeps (Counted k) (Dial.exchangeNext c w what inner) := by
  intro d hd
  have hleads := exchangeNext_heardOnly (c := c) (w := w) what inner d
  rw [Proc.Leads] at hleads
  rcases hrun : Dial.exchangeNext c w what inner d with ⟨r, d'⟩
  rw [hrun] at hleads
  cases r with
  | ok resp =>
      rw [Counted, hleads.messageID, hleads.responses, List.length_append, List.length_singleton,
        UInt32.ofNat_add, ← UInt32.add_assoc, show d.s.messageID = _ from hd]
      rfl
  | error e =>
      rw [Counted, hleads.messageID, hleads.responses]
      exact hd

theorem ikeAuth_counted (k : UInt32) : Proc.Keeps (Counted k) (Dial.ikeAuth c w) :=
  ikeAuth_keeps ⟨fun _ _ h => h, fun _ _ h => h, fun _ _ h => h, fun _ _ _ h => h⟩
    (exchangeNext_counted k) (fun _ _ _ h => h) fun _ _ _ h => h

/-- The call hears at most `n` responses. -/
def HearsAtMost {α : Type} (n : Nat) (x : Dial α) : Prop :=
  ∀ d, (responses (x d).2.log).length ≤ (responses d.log).length + n

namespace HearsAtMost

variable {α β : Type} {x : Dial α}

theorem of_keeps (h : ∀ rs, Proc.Keeps (fun d => responses d.log = rs) x) : HearsAtMost 0 x :=
  fun d => by rw [h _ d rfl]; exact le_rfl

theorem bind {n m : Nat} {f : α → Dial β} (hx : HearsAtMost n x) (hf : ∀ a, HearsAtMost m (f a)) :
    HearsAtMost (n + m) (x >>= f) := by
  intro d
  have hd := hx d
  rcases hrun : x d with ⟨r, d'⟩
  rw [hrun] at hd
  dsimp only at hd
  cases r with
  | ok a =>
      rw [Proc.bind_of_ok hrun]
      have hd' := hf a d'
      omega
  | error e =>
      rw [Proc.bind_of_error hrun]
      dsimp only
      omega

theorem mono {n m : Nat} (hx : HearsAtMost n x) (h : n ≤ m) : HearsAtMost m x :=
  fun d => (hx d).trans (by omega)

end HearsAtMost

theorem exchangeNext_hears (what : String) (inner : Payloads) :
    HearsAtMost 1 (Dial.exchangeNext c w what inner) := by
  intro d
  have hleads := exchangeNext_heardOnly (c := c) (w := w) what inner d
  rw [Proc.Leads] at hleads
  rcases hrun : Dial.exchangeNext c w what inner d with ⟨r, d'⟩
  rw [hrun] at hleads
  cases r with
  | ok resp =>
      rw [hleads.responses, List.length_append]
      rfl
  | error e =>
      rw [hleads.responses]
      omega

theorem eapRounds_hears (n : Nat) (m : Eap.MSCHAPv2) (req : Eap.Packet) :
    HearsAtMost n (Dial.eapRounds c w n m req) := by
  induction n generalizing m req with
  | zero => exact .of_keeps fun _ => .raise _
  | succ n ih =>
      have hquiet {x : Dial Eap.MSCHAPv2} (h : ∀ rs, Proc.Keeps (fun d => responses d.log = rs) x) :
          HearsAtMost (n + 1) x := (HearsAtMost.of_keeps h).mono (Nat.zero_le _)
      rw [Dial.eapRounds]
      split
      · exact hquiet fun _ => .ite (.raise _) (.pure _)
      split
      · exact hquiet fun _ => .raise _
      refine HearsAtMost.mono (.bind (n := 0) (m := 1 + (0 + (0 + n))) (.of_keeps fun rs =>
        answerEAP_keeps (steady_responses rs) m req) fun r => .bind (exchangeNext_hears _ _) fun ps =>
          .bind (.of_keeps fun _ => .lift _) fun _ => .bind (.of_keeps fun _ => .lift _) fun o => ?_)
        (by omega)
      cases o with
      | none => exact (HearsAtMost.of_keeps fun _ => .raise _).mono (Nat.zero_le _)
      | some next => exact ih r.2 next

theorem ikeAuth_hears : HearsAtMost (maxEAPRounds + 2) (Dial.ikeAuth c w) := by
  have hfinal (ps : Payloads) (secret : Bytes) :
      HearsAtMost 0 (Dial.handleFinalAuthResponse c ps secret) :=
    .of_keeps fun rs =>
      handleFinalAuthResponse_keeps (steady_responses rs) (fun _ _ _ h => h) ps secret
  have halloc : HearsAtMost 0 (Dial.allocChildSPI w) :=
    .of_keeps fun rs => allocChildSPI_keeps (steady_responses rs)
  have hsession : HearsAtMost 0 Dial.session := .of_keeps fun _ _ hd => hd
  have hderef : HearsAtMost 0 (Dial.deref Handshake.ikeSA) := .of_keeps fun _ => deref_keeps _
  have hlift {α : Type} (r : Go α) : HearsAtMost 0 (Proc.lift r : Dial α) := .of_keeps fun _ => .lift r
  refine HearsAtMost.mono (n := 0 + (maxEAPRounds + 2)) (.bind hsession fun s => ?_) (by omega)
  cases s.ikeSA with
  | none => exact (hlift _).mono (Nat.zero_le _)
  | some ike =>
      dsimp only
      split
      · refine HearsAtMost.mono (.bind halloc fun _ => .bind hsession fun _ => .bind hderef fun _ =>
          .bind (exchangeNext_hears _ _) fun _ => .bind (hlift _) fun _ => hfinal _ _) ?_
        omega
      · refine HearsAtMost.mono (.bind halloc fun _ => .bind hsession fun _ =>
          .bind (exchangeNext_hears _ _) fun _ =>
            .bind (.of_keeps fun rs => handleAuthResponse_keeps (steady_responses rs) _) fun _ =>
              .bind (eapRounds_hears _ _ _) fun _ => .bind (hlift _) fun _ =>
                .bind (.of_keeps fun _ _ hd => hd) fun _ => .bind hsession fun _ =>
                  .bind hderef fun _ => .bind (exchangeNext_hears _ _) fun _ => hfinal _ _) ?_
        omega

/-- A run that leaves a request open, and a run that goes on from there until every request
is answered, do not end with the same counter. -/
theorem messageID_ne {k : UInt32} {d₁ d₂ : Dialing} (h₁ : Counted k d₁) (h₂ : Counted k d₂)
    (hopen : Open d₁.log) (hans : AllAnswered d₂.log) (hlog : d₁.log <:+ d₂.log)
    (hbound : (responses d₂.log).length < 2 ^ 32) : d₁.s.messageID ≠ d₂.s.messageID := by
  intro heq
  have hasked : asked d₁.log ≤ asked d₂.log := hlog.sublist.countP_le
  rw [Open] at hopen
  rw [AllAnswered] at hans
  rw [Counted] at h₁ h₂
  rw [h₁, h₂, UInt32.add_right_inj, ← UInt32.toNat_inj, UInt32.toNat_ofNat', UInt32.toNat_ofNat',
    Nat.mod_eq_of_lt (by omega), Nat.mod_eq_of_lt hbound] at heq
  omega

/-- IKE_AUTH with injected datagrams that the IKE SA does not decode, beside a run in which
every request is answered and that reads `l`, up to its last arrival: the result and the
session are the same exactly if no injected datagram in `l` is by its header the response
that is awaited where it stands. -/
theorem ikeAuth_injected_iff (c : Crypto) (w : World) (d : Dialing) (l rest : Stream)
    (hlog : d.log = []) (hins : Stream.Inserts (Forged c d.s) (l ++ rest))
    (hlast : ∀ y, l.getLast? = some y → y.2 = false)
    (hread : (Dial.ikeAuth c w { d with inbox := Stream.genuine (l ++ rest) }).2.inbox = rest.genuine)
    (hans : AllAnswered (Dial.ikeAuth c w { d with inbox := Stream.genuine (l ++ rest) }).2.log) :
    ((Dial.ikeAuth c w { d with inbox := Stream.whole (l ++ rest) }).1 =
        (Dial.ikeAuth c w { d with inbox := Stream.genuine (l ++ rest) }).1 ∧
      (Dial.ikeAuth c w { d with inbox := Stream.whole (l ++ rest) }).2.s =
        (Dial.ikeAuth c w { d with inbox := Stream.genuine (l ++ rest) }).2.s) ↔
      Inert d.s.nattMode (· + 1) d.s.messageID l := by
  have hrest : AtRest d.s d.s d.log := ⟨rfl, by rw [hlog]; rfl⟩
  have hbeside : Beside (authComparison c d.s) (Dial.ikeAuth c w) d (l ++ rest) d.taken d.taken :=
    ikeAuth_comparable.beside d _ d.taken d.taken hins hrest
  refine hbeside.inert_iff hlast hread ?_ ?_ ?_
  · intro e d₂ herr hopen
    rw [show Dial.ikeAuth c w { d with inbox := Stream.genuine (l ++ rest) } = _ from herr] at hans
    rw [AllAnswered] at hans
    rw [show asked d₂.log = _ from hopen] at hans
    exact absurd hans (Nat.succ_ne_self _)
  · rintro r d' t' tk₁ tk₂ hwhole ⟨t'', hgenuine⟩ -
    rw [show Dial.ikeAuth c w { d with inbox := Stream.whole (l ++ rest) } = _ from hwhole,
      show Dial.ikeAuth c w { d with inbox := Stream.genuine (l ++ rest) } = _ from hgenuine]
    exact ⟨rfl, rfl⟩
  · rintro l₁ a t₁ - ⟨-, hopen, hsuffix, -⟩ ⟨-, hs⟩
    have hcount (inbox : List Arrival) : Counted d.s.messageID { d with inbox } := by
      rw [Counted, hlog]
      exact (UInt32.add_zero _).symm
    have hbound := ikeAuth_hears (c := c) (w := w) { d with inbox := Stream.genuine (l ++ rest) }
    rw [show responses d.log = [] by rw [hlog]; rfl] at hbound
    exact messageID_ne (ikeAuth_counted _ _ (hcount _)) (ikeAuth_counted _ _ (hcount _)) hopen hans
      hsuffix (hbound.trans_lt (by decide)) (congrArg Handshake.messageID hs)

end

/-! ## An instance -/

/-- A response without payloads, which anyone can make. -/
def sampleForgery (k : UInt32) : Bytes :=
  valueD (Message.marshal { initiatorSPI := 1, responderSPI := 2, exchange := exchangeIKEAuth,
                            flags := flagResponse, messageID := k, payloads := [] }) []

/-- A session with a pre-shared key, and what its responder sends. -/
def sampleAwaiting : Dialing := sampleAuth { psk := [9] } [sampleFinal sampleID [9]]

theorem forged_sampleForgery {k : UInt32}
    (h : (decodeSKWith .sample (sampleSA .initiator) (sampleForgery k)).1.isOk = false) :
    Forged .sample sampleAwaiting.s (sampleForgery k) := by
  intro sa ike hsa hike r hdec
  have hsome : sampleAwaiting.s.ikeSA = some (sampleSA .initiator) := rfl
  have hplain : Dial.unframe false (sampleForgery k) = .ok (some (sampleForgery k)) := rfl
  obtain rfl := Option.some.inj (hsome.symm.trans hsa)
  obtain rfl := Option.some.inj (Except.ok.inj (hplain.symm.trans hike))
  rw [hdec] at h
  cases h

/-- One injected datagram has another Message ID, and one comes when the exchange is over. -/
def sampleInjected : Stream × Stream :=
  ([(.datagram (sampleForgery 7), true),
    (.datagram (fromResponder exchangeIKEAuth flagResponse 1 (sampleFinal sampleID [9])), false)],
   [(.datagram (sampleForgery 1), true)])

theorem inserts_sampleInjected :
    Stream.Inserts (Forged .sample sampleAwaiting.s) (sampleInjected.1 ++ sampleInjected.2) := by
  intro a ha
  simp only [sampleInjected, List.cons_append, List.nil_append, List.mem_cons, Prod.mk.injEq,
    Bool.true_eq_false, and_false, and_true, false_or, or_false, List.not_mem_nil] at ha
  rcases ha with rfl | rfl
  · exact ⟨_, rfl, forged_sampleForgery (by decide +kernel)⟩
  · exact ⟨_, rfl, forged_sampleForgery (by decide +kernel)⟩

theorem ikeAuth_injected_iff_sample :
    Inert sampleAwaiting.s.nattMode (· + 1) sampleAwaiting.s.messageID sampleInjected.1 ∧
      (Dial.ikeAuth .sample sampleWorld { sampleAwaiting with
        inbox := Stream.whole (sampleInjected.1 ++ sampleInjected.2) }).1 = .ok () := by
  have hinert : Inert sampleAwaiting.s.nattMode (· + 1) sampleAwaiting.s.messageID sampleInjected.1 := by
    decide +kernel
  have hok : (Dial.ikeAuth .sample sampleWorld { sampleAwaiting with
      inbox := Stream.genuine (sampleInjected.1 ++ sampleInjected.2) }).1 = .ok () := by
    decide +kernel
  refine ⟨hinert, ((ikeAuth_injected_iff .sample sampleWorld sampleAwaiting sampleInjected.1
    sampleInjected.2 rfl inserts_sampleInjected ?_ ?_ ?_).mpr hinert).1.trans hok⟩
  · intro y hy
    cases hy
    rfl
  · decide +kernel
  · unfold AllAnswered
    decide +kernel

/-- A datagram that anyone can make ends the authentication. -/
theorem forgery_ends_ikeAuth :
    ∃ (d : Dialing) (forgery response : Bytes), Fresh d ∧ Forged .sample d.s forgery ∧
      (Dial.ikeAuth .sample sampleWorld { d with inbox := [.datagram response] }).1 = .ok () ∧
      (Dial.ikeAuth .sample sampleWorld
        { d with inbox := [.datagram forgery, .datagram response] }).1 ≠ .ok () :=
  ⟨sampleAwaiting, sampleForgery 1,
    fromResponder exchangeIKEAuth flagResponse 1 (sampleFinal sampleID [9]), ⟨rfl, rfl, rfl⟩,
    forged_sampleForgery (by decide +kernel), by decide +kernel, by decide +kernel⟩

end GoIpsec.Session
