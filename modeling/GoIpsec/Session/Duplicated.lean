import GoIpsec.Session.Inserted
import GoIpsec.Session.Transcript

/-!
# Duplicates in IKE_SA_INIT

All requests of IKE_SA_INIT have the Message ID 0.  So a second copy of a challenge that
was answered is by its header a response to the retried request, and it is taken as such
if it comes before that response.

The exchange goes on as without the copies exactly if none of them is by its header a
response with Message ID 0, as far as the exchange reads (`ikeSAInit_copies_iff`).
-/

set_option linter.dupNamespace false

namespace GoIpsec.Session

open Golang Ikemsg Ikesa

/-- The runs of IKE_SA_INIT: the run that takes an inserted datagram records it. -/
def initComparison (natt : Bool) : Comparison where
  natt
  kind _ := True
  next := id
  awaits _ := 0
  Struck u _ d₁ d₂ := u.length ∈ d₁.taken ∧ d₂.inbox.length < u.genuine.length
  Lost _ := True
  struck_inbox h := h.2
  struck_onward h _ h₁ h₂ := ⟨h₁.taken h.1, h₂.inbox.trans_lt h.2⟩

/-- Behind any stream the same Message ID is awaited. -/
theorem awaited_id (natt : Bool) (k : UInt32) (t : Stream) : awaited natt id k t = k := by
  induction t with
  | nil => rfl
  | cons x t ih =>
      obtain ⟨a, b⟩ := x
      cases b with
      | true => exact ih
      | false =>
          rw [awaited, id, ite_self]
          exact ih

section

variable {c : Crypto} {w : World} {natt : Bool} {d : Dialing} {t : Stream} {tk tk' : List Nat}

/-! ## One exchange -/

theorem getElem?_reverse_length {α : Type} (l t : List α) (x : α) :
    (l ++ x :: t).reverse[t.length]? = some x := by
  simp

theorem exchangeInit_beside {kind : Bytes → Prop} (req : Bytes) (ht : t.Inserts kind)
    (hnatt : d.s.nattMode = natt) :
    Beside (initComparison natt) (Dial.exchangeInit w req) d t tk tk' := by
  have hinit (d : Dialing) : Dial.exchangeInit w req d =
      match Dial.exchange w req 0 d with
      | (.ok rsp, d') => (.ok rsp, { d' with taken := d'.inbox.length :: d'.taken })
      | (.error e, d') => (.error e, d') := by
    rcases hrun : Dial.exchange w req 0 d with ⟨r, d'⟩
    cases r with
    | ok rsp => exact Proc.bind_of_ok hrun
    | error e => exact Proc.bind_of_error hrun
  rcases hg : Dial.exchange w req 0 (d.fed t.genuine tk') with ⟨r, d₂⟩
  cases r with
  | error e =>
      have hlost : Dial.exchangeInit w req (d.fed t.genuine tk') = (.error e, d₂) := by
        rw [hinit, hg]
      exact .lost hlost trivial
  | ok ike =>
      have hgen : Dial.exchangeInit w req (d.fed t.genuine tk') =
          (.ok ike, { d₂ with taken := d₂.inbox.length :: d₂.taken }) := by
        rw [hinit, hg]
      have htwo : Exchanges 0 d t tk tk' ike d₂ (Dial.exchange w req 0 (d.fed t.whole tk)) :=
        exchange_twofold ht hg
      cases htwo with
      | alike split quiet hraw whole genuine =>
          rename_i l t' raw sent
          rw [hnatt] at quiet hraw
          have hlen : t'.whole.length = t'.length := List.length_map _
          have hwhole : Dial.exchangeInit w req (d.fed t.whole tk) =
              (.ok ike, Dialing.fed { d with sent } t'.whole (t'.length :: tk)) := by
            rw [hinit, whole, ← hlen]
            rfl
          rw [genuine] at hgen
          have hinert : Inert natt id 0 (l ++ [(.datagram raw, false)]) :=
            (quiet.inert_concat (responds_of_matching hraw)).1
          refine .alike (l := l ++ [(Arrival.datagram raw, false)]) (by rw [split, List.append_assoc]; rfl)
            hinert hwhole hgen ?_ ?_
          · exact fun _ _ => (awaited_id natt 0 _).symm
          · intro n hn
            rcases List.mem_cons.mp hn with rfl | hn
            · exact .inr ⟨_, by rw [split]; exact getElem?_reverse_length _ _ _⟩
            · exact .inl hn
      | struck split quiet hraw whole =>
          rename_i l t' raw ike' sent
          subst split
          have hless := length_lt_of_struck quiet hg
          rw [hnatt] at quiet hraw
          obtain ⟨hl, hk⟩ : Inert natt id 0 l ∧ awaited natt id 0 l = 0 := quiet.inert
          refine .struck rfl hl ?_ ⟨?_, ?_⟩
          · exact (congrArg (Arrival.responds natt · (.datagram raw)) hk).trans
              (responds_of_matching hraw)
          · rw [hinit, whole]
            exact List.mem_cons.mpr (.inl (List.length_map _).symm)
          · rw [hgen]
            exact hless

/-! ## The exchange -/

/-- The mode of the transport, which says how a datagram is framed. -/
def InMode (natt : Bool) (s : Handshake) (_ : List Moment) : Prop := s.nattMode = natt

theorem setSession_comparable {f : Handshake → Handshake} (h : ∀ s, (f s).nattMode = s.nattMode) :
    Comparable (initComparison natt) (InMode natt) (fun _ => InMode natt) (Dial.setSession f) :=
  .setSession (fun s _ hs => (h s).trans hs) fun _ => rfl

theorem exchangeInit_comparable (req : Bytes) :
    Comparable (initComparison natt) (InMode natt) (fun _ => InMode natt) (Dial.exchangeInit w req) where
  onward := .bind (.exchange w req 0) fun _ => .bind .noteTaken fun _ => .pure _
  keeps d rsp d' hd h := by
    obtain ⟨rsp', d₁, hex, h⟩ := Proc.bind_eq_ok h
    cases h
    obtain ⟨⟨sent, inbox, rfl⟩, -, -⟩ := Dial.exchange_eq_ok hex
    exact hd
  beside _ _ _ _ ht hd := exchangeInit_beside req ht hd

theorem sendSAInit_comparable (cookie : Bytes) :
    Comparable (initComparison natt) (InMode natt) (fun _ => InMode natt) (Dial.sendSAInit w cookie) :=
  .bind .session fun _ => .bind (.lift _) fun _ =>
    .bind (setSession_comparable fun _ => rfl) fun _ =>
      .bind (.wrap (exchangeInit_comparable _)) fun _ =>
        .bind (setSession_comparable fun _ => rfl) fun _ => .pure _

theorem retryCookie_comparable (rsp : Bytes) :
    Comparable (initComparison natt) (InMode natt) (fun _ => InMode natt) (Dial.retryCookie w rsp) := by
  unfold Dial.retryCookie
  cases saInitCookie rsp with
  | none => exact .pure _
  | some cookie => exact .bind (sendSAInit_comparable cookie) fun _ => .pure _

theorem retryInvalidKE_comparable (cookie rsp : Bytes) :
    Comparable (initComparison natt) (InMode natt) (fun _ => InMode natt)
      (Dial.retryInvalidKE c w cookie rsp) := by
  unfold Dial.retryInvalidKE
  cases saInitInvalidKE rsp with
  | none => exact .pure _
  | some g =>
      refine .bind (.deref _) fun dh => .ite (.raise _) ?_
      refine .bind (.bind (.randRead w) fun _ => .lift _) fun dh =>
        .bind (setSession_comparable fun _ => rfl) fun _ =>
          .bind (sendSAInit_comparable cookie) fun rsp' => ?_
      cases saInitCookie rsp' with
      | none => exact .pure _
      | some cookie' => exact .bind (sendSAInit_comparable cookie') fun _ => .pure _

theorem saInitPayload_comparable (dh : DH) (r : SaInitResponse) (p : Payload) :
    Comparable (initComparison natt) (InMode natt) (fun _ => InMode natt) (Dial.saInitPayload dh r p) := by
  cases p with
  | sa p =>
      unfold Dial.saInitPayload
      dsimp only
      cases p.proposals with
      | nil => exact .raise _
      | cons prop rest =>
          refine .bind .session fun s => ?_
          cases selectedSuite prop s.enabledIKESuites with
          | none => exact .raise _
          | some suite => exact .ite (.raise _) (.pure _)
  | ke p => exact .bind (setSession_comparable fun _ => rfl) fun _ => .pure _
  | nonce p => exact .bind (setSession_comparable fun _ => rfl) fun _ => .pure _
  | _ => exact .pure _

theorem saInitPayloads_comparable (dh : DH) (r : SaInitResponse) (ps : Payloads) :
    Comparable (initComparison natt) (InMode natt) (fun _ => InMode natt) (Dial.saInitPayloads dh r ps) := by
  induction ps generalizing r with
  | nil => exact .pure _
  | cons p ps ih => exact .bind (saInitPayload_comparable dh r p) fun r' => ih r'

theorem handleSAInitResponse_comparable (raw : Bytes) :
    Comparable (initComparison natt) (InMode natt) (fun _ => InMode natt)
      (Dial.handleSAInitResponse c w raw) := by
  refine .bind (.lift _) fun m => .bind .session fun s => ?_
  refine .ite (.raise _) (.ite (.raise _) (.ite (.raise _) (.ite (.raise _) (.ite (.raise _) ?_))))
  refine .bind (setSession_comparable fun _ => rfl) fun _ => .bind (.deref _) fun dh =>
    .bind (saInitPayloads_comparable dh {} m.payloads) fun r => ?_
  cases r.notifyErr with
  | some text => exact .raise _
  | none =>
      cases r.suite with
      | none => exact .raise _
      | some suite =>
          refine .ite (.raise _) ?_
          exact .bind (setSession_comparable fun _ => rfl) fun _ => .bind .session fun s =>
            .bind (.lift _) fun _ => .bind (.lift _) fun _ =>
              setSession_comparable fun _ => rfl

theorem saInitKeys_comparable :
    Comparable (initComparison natt) (InMode natt) (fun _ => InMode natt) (Dial.saInitKeys c w) :=
  .bind (.bind (.bind (.randRead w) fun _ => .lift _) fun _ => .lift _) fun _ =>
    .bind (setSession_comparable fun _ => rfl) fun _ =>
      .bind (.bind (.randRead w) fun _ => .lift _) fun _ =>
        .bind (setSession_comparable fun _ => rfl) fun _ =>
          .bind (.bind (.randRead w) fun _ => .lift _) fun _ =>
            setSession_comparable fun _ => rfl

theorem migrateNATT_comparable :
    Comparable (initComparison natt) (InMode natt) (fun _ _ _ => True) (Dial.migrateNATT w) :=
  .setSession (fun _ _ _ => trivial) fun _ => rfl

theorem ikeSAInit_comparable :
    Comparable (initComparison natt) (InMode natt) (fun _ _ _ => True) (Dial.ikeSAInit c w) :=
  .bind .session fun _ => .bind (.lift _) fun _ => .bind saInitKeys_comparable fun _ =>
    .bind (sendSAInit_comparable []) fun rsp => .bind (retryCookie_comparable rsp) fun r =>
      .bind (retryInvalidKE_comparable r.1 r.2) fun _ => .bind .session fun s =>
        .bind (handleSAInitResponse_comparable s.initSAInitRsp) fun _ =>
          .bind migrateNATT_comparable fun _ => .setSession (fun _ _ _ => trivial) fun _ => rfl

/-- IKE_SA_INIT beside a run that succeeds without the inserted datagrams and that reads
`l`, up to its last arrival: it succeeds too and takes none of them as a response exactly
if none of them in `l` is by its header a response with Message ID 0. -/
theorem ikeSAInit_copies_iff (c : Crypto) (w : World) (d : Dialing) (l rest : Stream)
    (hins : Stream.Inserts (fun _ => True) (l ++ rest))
    (hlast : ∀ y, l.getLast? = some y → y.2 = false)
    (hok : (Dial.ikeSAInit c w (d.fed (Stream.genuine (l ++ rest)) [])).1 = .ok ())
    (hread : (Dial.ikeSAInit c w (d.fed (Stream.genuine (l ++ rest)) [])).2.inbox = rest.genuine) :
    ((Dial.ikeSAInit c w (d.fed (Stream.whole (l ++ rest)) [])).1 = .ok () ∧
      ∀ n ∈ (Dial.ikeSAInit c w (d.fed (Stream.whole (l ++ rest)) [])).2.taken,
        ∃ a, (l ++ rest).reverse[n]? = some (a, false)) ↔
      Inert d.s.nattMode id 0 l := by
  have hbeside : Beside (initComparison d.s.nattMode) (Dial.ikeSAInit c w) d (l ++ rest) [] [] :=
    ikeSAInit_comparable.beside d _ [] [] hins rfl
  refine hbeside.inert_iff hlast hread ?_ ?_ ?_
  · intro e d₂ herr
    rw [herr] at hok
    cases hok
  · rintro r d' t' tk₁ tk₂ hwhole ⟨t'', hgenuine⟩ htaken
    rw [hgenuine] at hok
    rw [hwhole]
    exact ⟨hok, fun n hn => (htaken n hn).resolve_left fun hnil => nomatch hnil⟩
  · rintro l₁ a t₁ split ⟨htaken, -⟩ ⟨-, hgenuine⟩
    obtain ⟨a', ha'⟩ := hgenuine _ htaken
    rw [split, getElem?_reverse_length] at ha'
    cases ha'

end

/-! ## An instance -/

/-- A cookie challenge, as in `sampleDial`. -/
def sampleCookie : Arrival :=
  sampleDial.response 0 [.notify { protocol := 0, type := notifyCookie, data := [1, 2, 3] }]

/-- A response that completes the exchange. -/
def sampleAnswer : Arrival :=
  sampleDial.response 9 [
    .sa { proposals := [{ number := 1, protocol := protocolIKE, spi := [], transforms := [
      { type := transformEncr, id := encrChaCha20Poly1305 },
      { type := transformPRF, id := prfHMACSHA2256 },
      { type := transformDH, id := dhX25519 }] }] },
    .ke { group := dhX25519, data := List.replicate 32 4 },
    .nonce { data := List.replicate 32 7 }]

/-- A datagram that is no IKE message comes twice, and a copy of the challenge comes when
the exchange is over. -/
theorem ikeSAInit_copies_iff_sample :
    let l : Stream := [(.datagram [0], false), (sampleCookie, false), (.datagram [0], true),
      (sampleAnswer, false)]
    let rest : Stream := [(sampleCookie, true)]
    Inert false id 0 l ∧
      (Dial.ikeSAInit .sample sampleWorld (sampleDial.fed (Stream.whole (l ++ rest)) [])).1 =
        .ok () := by
  intro l rest
  have hinert : Inert false id 0 l := by decide +kernel
  refine ⟨hinert, ((ikeSAInit_copies_iff .sample sampleWorld sampleDial l rest ?_ ?_ ?_ ?_).mpr
    hinert).1⟩
  · intro a ha
    simp only [l, rest, List.cons_append, List.nil_append, List.mem_cons, Prod.mk.injEq,
      Bool.true_eq_false, and_false, and_true, false_or, or_false, List.not_mem_nil] at ha
    rcases ha with rfl | rfl
    · exact ⟨_, rfl, trivial⟩
    · exact ⟨_, rfl, trivial⟩
  · intro y hy
    cases hy
    rfl
  · decide +kernel
  · decide +kernel

/-- A copy of an answered challenge is taken as the response to the retried request, and
the exchange fails. -/
theorem copy_of_challenge_taken :
    ∃ (d : Dialing) (challenge answer : Arrival),
      (Dial.ikeSAInit .sample sampleWorld (d.fed [challenge, answer] [])).1 = .ok () ∧
      (Dial.ikeSAInit .sample sampleWorld (d.fed [challenge, challenge, answer] [])).1 ≠ .ok () ∧
      1 ∈ (Dial.ikeSAInit .sample sampleWorld (d.fed [challenge, challenge, answer] [])).2.taken :=
  ⟨sampleDial, sampleCookie, sampleAnswer, by decide +kernel, by decide +kernel, by decide +kernel⟩

end GoIpsec.Session
