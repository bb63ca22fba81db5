import GoIpsec.Session.Conversation

/-!
# The steps of IKE_AUTH

What each procedure of IKE_AUTH leaves as it was, for any property of the run that the
steps between two exchanges do not touch (`Steady`), and what an exchange adds to the log
(`Heard`).
-/

set_option linter.dupNamespace false

namespace GoIpsec.Session

open Golang Ikemsg Ikesa

/-! ## The log -/

def Moment.heard? : Moment → Option Payloads
  | .heard inner => some inner
  | _ => none

def Moment.answered? : Moment → Option (Eap.Packet × Eap.MSCHAPv2)
  | .answered req m => some (req, m)
  | _ => none

/-- The responses that were decoded, oldest first. -/
def responses (log : List Moment) : List Payloads := (log.filterMap Moment.heard?).reverse

/-- The EAP requests that were answered, newest first. -/
def eapAnswers (log : List Moment) : List (Eap.Packet × Eap.MSCHAPv2) := log.filterMap Moment.answered?

/-- The part of a session that IKE_AUTH does not change: everything but the outcome, the
counters and the identity of the responder. -/
def Handshake.fixed (s : Handshake) : Handshake :=
  { s with
    ikeSA := s.ikeSA.map fun ike => { ike with skSeq := 0 }
    messageID := 0
    childInitiatorSPI := 0
    remoteIDr := {}
    child := none
    assigned := {}
    established := false }

theorem exists_ikeSA_of_fixed {s s' : Handshake} {ike' : IKESA} (h : s'.fixed = s.fixed)
    (hike : s'.ikeSA = some ike') :
    ∃ ike, s.ikeSA = some ike ∧ { ike' with skSeq := 0 } = { ike with skSeq := 0 } := by
  have hmap : s'.ikeSA.map (fun ike => { ike with skSeq := 0 }) =
      s.ikeSA.map fun ike => { ike with skSeq := 0 } := congrArg Handshake.ikeSA h
  rw [hike, Option.map_some, eq_comm, Option.map_eq_some_iff] at hmap
  obtain ⟨ike, hs, heq⟩ := hmap
  exact ⟨ike, hs, heq.symm⟩

section

variable {c : Crypto} {w : World} {P : Dialing → Prop}

/-! ## One exchange -/

theorem encodeSK_keeps (t : ExchangeType) (f : Flags) (k : UInt32) (inner : Payloads)
    (hP : ∀ d ike ike', P d → P (d.spend ike ike'))
    (hlog : ∀ d ctx raw, P d → P { d with log := .sealed ctx t f k inner raw :: d.log }) :
    Proc.Keeps P (Dial.encodeSK c w t f k inner) := by
  intro d hd
  unfold Dial.encodeSK
  split
  · exact hd
  · dsimp only
    split
    · exact hP d _ _ hd
    · exact hlog (d.spend _ _) _ _ (hP d _ _ hd)

theorem exchange_keeps (req : Bytes) (k : UInt32)
    (hP : ∀ d sent inbox, P d → P { d with sent, inbox }) : Proc.Keeps P (Dial.exchange w req k) := by
  intro d hd
  obtain ⟨sent, inbox, h⟩ := Dial.exchange_frame (w := w) req k d
  rw [h]
  exact hP d sent inbox hd

theorem decodeSK_keeps (raw : Bytes)
    (hlog : ∀ d inner, P d → P { d with log := .heard inner :: d.log }) :
    Proc.Keeps P (Dial.decodeSK c raw) := by
  intro d hd
  unfold Dial.decodeSK
  split
  · exact hd
  · split
    · exact hd
    · exact hlog _ _ hd

theorem deref_keeps {α : Type} (field : Handshake → Option α) :
    Proc.Keeps P (Dial.deref field) := by
  intro d hd
  unfold Dial.deref
  split <;> exact hd

theorem deref_leads {α β : Type} {field : Handshake → Option α} {f : α → Dial β} {d : Dialing}
    {Q : β → Dialing → Prop} {E : Dialing → Prop} (hE : E d)
    (hf : ∀ a, field d.s = some a → Proc.Leads (f a) d Q E) :
    Proc.Leads (Dial.deref field >>= f) d Q E := by
  cases h : field d.s with
  | none =>
      have hnone : Dial.deref field d = (.error .panic, d) := by rw [Dial.deref, h]
      rw [Proc.Leads, Proc.bind_of_error hnone]
      exact hE
  | some a => exact .bind_of_ok (by rw [Dial.deref, h]) (hf a h)

/-- The state after an exchange of IKE_AUTH that was answered with `resp`. -/
structure Heard (d : Dialing) (resp : Payloads) (d' : Dialing) : Prop where
  fixed : d'.s.fixed = d.s.fixed
  messageID : d'.s.messageID = d.s.messageID + 1
  remoteIDr : d'.s.remoteIDr = d.s.remoteIDr
  responses : responses d'.log = responses d.log ++ [resp]
  answers : eapAnswers d'.log = eapAnswers d.log
  log : ∃ newer, d'.log = newer ++ d.log

theorem exchangeNext_eq_ok {what : String} {inner resp : Payloads} {d d' : Dialing}
    (h : Dial.exchangeNext c w what inner d = (.ok resp, d')) : Heard d resp d' := by
  unfold Dial.exchangeNext at h
  obtain ⟨s, d₁, h₁, h⟩ := Proc.bind_eq_ok h
  cases h₁
  obtain ⟨ps, d₂, h₂, h⟩ := Proc.bind_eq_ok h
  obtain ⟨_, d₃, h₃, h⟩ := Proc.bind_eq_ok h
  cases h₃
  cases h
  obtain ⟨ike, d₃, h₃, h₂⟩ := Proc.bind_eq_ok (Proc.wrap_eq_ok.mp h₂)
  obtain ⟨hike, rfl⟩ := Dial.deref_eq_ok h₃
  obtain ⟨req, d₄, henc, h₂⟩ := Proc.bind_eq_ok h₂
  obtain ⟨raw, d₅, hex, hdec⟩ := Proc.bind_eq_ok h₂
  obtain ⟨⟨sent, inbox, rfl⟩, -, -⟩ := Dial.exchange_eq_ok hex
  obtain ⟨n, hn⟩ := encodeSKWith_snd c ike (w.rand d.reads) d.s.initiatorSPI d.s.responderSPI
    exchangeIKEAuth (ikeRoleBit ike.role) d.s.messageID inner
  simp only [Dial.encodeSK, hike] at henc
  split at henc
  · cases congrArg Prod.fst henc
  cases henc
  simp only [Dial.decodeSK, Dialing.spend] at hdec
  split at hdec
  · cases congrArg Prod.fst hdec
  cases hdec
  refine ⟨?_, rfl, rfl, ?_, rfl, [_, _], rfl⟩
  · simp only [Handshake.fixed, hn, hike, Option.map_some]
  · exact List.reverse_cons

/-- Nothing was heard but `rs`, and the counter is `k`. -/
structure HeardOnly (rs : List Payloads) (k : UInt32) (d : Dialing) : Prop where
  responses : responses d.log = rs
  messageID : d.s.messageID = k

/-- An exchange that fails hears nothing. -/
theorem exchangeNext_heardOnly (what : String) (inner : Payloads) (d : Dialing) :
    Proc.Leads (Dial.exchangeNext c w what inner) d (fun resp d' => Heard d resp d')
      (HeardOnly (responses d.log) d.s.messageID) := by
  have hd : HeardOnly (responses d.log) d.s.messageID d := ⟨rfl, rfl⟩
  refine .of_result (fun _ _ h => exchangeNext_eq_ok h) (.bind_of_ok rfl (.bind (.wrap ?_)
    (R := fun _ _ => True) fun _ _ (_ : True) => trivial))
  refine deref_leads hd fun ike _ => ?_
  refine .bind_keeps (encodeSK_keeps _ _ _ _ (fun _ _ _ h => ⟨h.responses, h.messageID⟩)
    fun _ _ _ h => ⟨h.responses, h.messageID⟩) hd fun req d₁ _ hd₁ => ?_
  refine .bind_keeps (exchange_keeps _ _ fun _ _ _ h => ⟨h.responses, h.messageID⟩) hd₁
    fun raw d₂ _ hd₂ => ?_
  rw [Proc.Leads, Dial.decodeSK]
  cases d₂.s.ikeSA with
  | none => exact hd₂
  | some ike =>
      dsimp only
      cases (decodeSKWith c ike raw).1 with
      | error e => exact hd₂
      | ok r => trivial

/-! ## Between the exchanges -/

/-- The steps between two exchanges keep the property. -/
structure Steady (P : Dialing → Prop) : Prop where
  reads : ∀ d n, P d → P { d with reads := n }
  spi : ∀ d spi, P d → P { d with s := { d.s with childInitiatorSPI := spi } }
  idr : ∀ d id, P d → P { d with s := { d.s with remoteIDr := id } }
  answered : ∀ d req m, P d → P { d with log := .answered req m :: d.log }

/-- Nothing is heard between two exchanges. -/
theorem steady_responses (rs : List Payloads) : Steady fun d => responses d.log = rs where
  reads _ _ h := h
  spi _ _ h := h
  idr _ _ h := h
  answered _ _ _ h := h

theorem allocChildSPI_keeps (hP : Steady P) : Proc.Keeps P (Dial.allocChildSPI w) :=
  .bind (.bind (fun d hd => hP.reads d _ hd) fun _ => .lift _) fun _ => .bind (.lift _) fun spi =>
    .bind (fun d hd => hP.spi d spi hd) fun _ => .pure _

theorem allocChildSPI_eq_ok {spi : Bytes} {d d' : Dialing}
    (h : Dial.allocChildSPI w d = (.ok spi, d')) :
    d'.s.fixed = d.s.fixed ∧ d'.s.remoteIDr = d.s.remoteIDr ∧ d'.log = d.log := by
  obtain ⟨buf, d₁, h₁, h⟩ := Proc.bind_eq_ok h
  obtain ⟨r, _, h₂, h₁⟩ := Proc.bind_eq_ok h₁
  cases h₂
  obtain ⟨-, rfl⟩ := Proc.lift_eq_ok h₁
  obtain ⟨n, _, h₃, h⟩ := Proc.bind_eq_ok h
  obtain ⟨-, rfl⟩ := Proc.lift_eq_ok h₃
  cases h
  exact ⟨rfl, rfl, rfl⟩

theorem handleAuthResponse_keeps (hP : Steady P) (ps : Payloads) :
    Proc.Keeps P (Dial.handleAuthResponse c w ps) := by
  refine .bind (.lift _) fun r => ?_
  cases r.idr with
  | none => exact .raise _
  | some idr =>
      refine .bind (fun d hd => hP.idr d _ hd) fun _ => .bind (fun _ hd => hd) fun s =>
        .bind (.lift _) fun leaf => ?_
      cases r.auth with
      | none => exact .raise _
      | some auth =>
          refine .bind (deref_keeps _) fun ike => .bind (.lift _) fun _ => .bind (.lift _) fun o => ?_
          cases o with
          | none => exact .raise _
          | some req => exact .pure _

theorem answerEAP_keeps (hP : Steady P) (m : Eap.MSCHAPv2) (req : Eap.Packet) :
    Proc.Keeps P (Dial.answerEAP w m req) :=
  .bind (fun d hd => hP.reads d _ hd) fun _ => .bind (.lift _) fun _ =>
    .bind (fun d hd => hP.answered d _ _ hd) fun _ => .pure _

theorem eapRounds_keeps (hP : Steady P)
    (hex : ∀ what inner, Proc.Keeps P (Dial.exchangeNext c w what inner)) (n : Nat)
    (m : Eap.MSCHAPv2) (req : Eap.Packet) : Proc.Keeps P (Dial.eapRounds c w n m req) := by
  induction n generalizing m req with
  | zero => exact .raise _
  | succ n ih =>
      refine .ite (.ite (.raise _) (.pure _)) <| .ite (.raise _) ?_
      refine .bind (answerEAP_keeps hP m req) fun _ => .bind (hex _ _) fun resp =>
        .bind (.lift _) fun _ => .bind (.lift _) fun o => ?_
      cases o with
      | none => exact .raise _
      | some next => exact ih _ next

theorem takeIDr_keeps (hP : Steady P) (o : Option IDrPayload) :
    Proc.Keeps P (Dial.takeIDr o) := by
  cases o with
  | none => exact .pure _
  | some idr => exact fun d hd => hP.idr d _ hd

theorem handleFinalAuthResponse_keeps (hP : Steady P)
    (hdone : ∀ d child assigned, P d →
      P { d with s := { d.s with child, assigned, established := true } })
    (ps : Payloads) (secret : Bytes) :
    Proc.Keeps P (Dial.handleFinalAuthResponse c ps secret) := by
  refine .bind (.lift _) fun r => ?_
  cases r.auth with
  | none => exact .raise _
  | some auth =>
      exact .bind (takeIDr_keeps hP _) fun _ => .bind (fun _ hd => hd) fun _ =>
        .bind (.lift _) fun _ => fun d hd => hdone d _ _ hd

theorem ikeAuth_keeps (hP : Steady P)
    (hex : ∀ what inner, Proc.Keeps P (Dial.exchangeNext c w what inner))
    (hderived : ∀ d m msk, P d → P { d with log := .derived m msk :: d.log })
    (hdone : ∀ d child assigned, P d →
      P { d with s := { d.s with child, assigned, established := true } }) :
    Proc.Keeps P (Dial.ikeAuth c w) := by
  refine .bind (fun _ hd => hd) fun s => ?_
  cases s.ikeSA with
  | none => exact .raise _
  | some ike =>
      refine .ite ?_ ?_
      · exact .bind (allocChildSPI_keeps hP) fun _ => .bind (fun _ hd => hd) fun s =>
          .bind (deref_keeps _) fun _ => .bind (hex _ _) fun _ => .bind (.lift _) fun _ =>
            handleFinalAuthResponse_keeps hP hdone _ _
      · exact .bind (allocChildSPI_keeps hP) fun _ => .bind (fun _ hd => hd) fun s =>
          .bind (hex _ _) fun _ => .bind (handleAuthResponse_keeps hP _) fun _ =>
            .bind (eapRounds_keeps hP hex _ _ _) fun _ => .bind (.lift _) fun _ =>
              .bind (fun d hd => hderived d _ _ hd) fun _ => .bind (fun _ hd => hd) fun _ =>
                .bind (deref_keeps _) fun _ => .bind (hex _ _) fun _ =>
                  handleFinalAuthResponse_keeps hP hdone _ _

end

end GoIpsec.Session
