import GoIpsec.Session.Handshake

/-!
# Inserted datagrams

Two runs of the same procedure, one of which receives more than the other.  A `Stream`
is what the first one receives, with the datagrams marked that the second one does not.

An exchange takes the first datagram that by its header is the awaited response.  So if
it succeeds without the inserted datagrams, it either ends in the same way with them, or
it takes an inserted one (`exchange_twofold`).  What happens between two exchanges does
not depend on what is received (`Deaf`).
-/

set_option linter.dupNamespace false

namespace GoIpsec.Session

open Golang Ikemsg Ikesa

/-! ## Streams -/

/-- What is received, with the inserted datagrams marked. -/
abbrev Stream := List (Arrival × Bool)

namespace Stream

def whole (t : Stream) : List Arrival := t.map Prod.fst

def genuine (t : Stream) : List Arrival := (t.filter fun x => !x.2).map Prod.fst

theorem genuine_append (t u : Stream) : genuine (t ++ u) = genuine t ++ genuine u := by
  rw [genuine, List.filter_append, List.map_append]
  rfl

@[simp] theorem whole_cons (x : Arrival × Bool) (t : Stream) : whole (x :: t) = x.1 :: whole t := rfl

@[simp] theorem genuine_true (a : Arrival) (t : Stream) : genuine ((a, true) :: t) = genuine t := rfl

@[simp] theorem genuine_false (a : Arrival) (t : Stream) :
    genuine ((a, false) :: t) = a :: genuine t := rfl

/-- Only datagrams of a kind are inserted. -/
def Inserts (kind : Bytes → Prop) (t : Stream) : Prop :=
  ∀ a, (a, true) ∈ t → ∃ raw, a = .datagram raw ∧ kind raw

theorem Inserts.suffix {kind : Bytes → Prop} {l t : Stream} (h : Inserts kind (l ++ t)) :
    Inserts kind t :=
  fun a ha => h a (List.mem_append_right l ha)

end Stream

/-- Whether an arrival is, by its header, the response with the given Message ID. -/
def Arrival.responds (natt : Bool) (k : UInt32) : Arrival → Bool
  | .datagram raw =>
      match Dial.matching natt k raw with
      | .ok (some _) => true
      | _ => false
  | _ => false

theorem responds_of_matching {natt : Bool} {k : UInt32} {raw ike : Bytes}
    (h : Dial.matching natt k raw = .ok (some ike)) :
    (Arrival.datagram raw).responds natt k = true := by
  rw [Arrival.responds, h]

/-- Nothing in the stream is the awaited response. -/
def NoResponse (natt : Bool) (k : UInt32) (t : Stream) : Prop := ∀ x ∈ t, x.1.responds natt k = false

theorem NoResponse.nil {natt : Bool} {k : UInt32} : NoResponse natt k [] := fun _ hx => nomatch hx

theorem NoResponse.cons {natt : Bool} {k : UInt32} {x : Arrival × Bool} {t : Stream}
    (hx : x.1.responds natt k = false) (h : NoResponse natt k t) : NoResponse natt k (x :: t) :=
  List.forall_mem_cons.mpr ⟨hx, h⟩

theorem NoResponse.append {natt : Bool} {k : UInt32} {l t : Stream} (hl : NoResponse natt k l)
    (h : NoResponse natt k t) : NoResponse natt k (l ++ t) :=
  List.forall_mem_append.mpr ⟨hl, h⟩

/-! ## One receive -/

/-- A receive from a stream, with and without what is inserted. -/
inductive Receives (natt : Bool) (k : UInt32) (t : Stream) : Prop where
  /-- Both take the same response. -/
  | alike {l t' : Stream} {raw ike : Bytes} (split : t = l ++ (.datagram raw, false) :: t')
      (quiet : NoResponse natt k l) (hraw : Dial.matching natt k raw = .ok (some ike))
      (whole : Dial.recvMatchingFrom natt k t.whole = (.ok ike, t'.whole))
      (genuine : Dial.recvMatchingFrom natt k t.genuine = (.ok ike, t'.genuine))
  /-- Both fail. -/
  | fails {l t' : Stream} {text : String} (split : t = l ++ t') (quiet : NoResponse natt k l)
      (whole : Dial.recvMatchingFrom natt k t.whole = (fail text, t'.whole))
      (genuine : Dial.recvMatchingFrom natt k t.genuine = (fail text, t'.genuine))
  /-- An inserted datagram is taken. -/
  | struck {l t' : Stream} {raw ike : Bytes} (split : t = l ++ (.datagram raw, true) :: t')
      (quiet : NoResponse natt k l) (hraw : Dial.matching natt k raw = .ok (some ike))
      (whole : Dial.recvMatchingFrom natt k t.whole = (.ok ike, t'.whole))

theorem receives {kind : Bytes → Prop} (natt : Bool) (k : UInt32) {t : Stream}
    (ht : t.Inserts kind) : Receives natt k t := by
  induction t with
  | nil => exact .fails (l := []) rfl .nil rfl rfl
  | cons x t ih =>
      have hrest := ih fun a ha => ht a (List.mem_cons_of_mem x ha)
      obtain ⟨a, b⟩ := x
      cases a with
      | failed text =>
          cases b with
          | true => obtain ⟨raw, hraw, -⟩ := ht _ List.mem_cons_self; cases hraw
          | false => exact .fails (l := [(.failed text, false)]) rfl (.cons rfl NoResponse.nil) rfl rfl
      | cancelled =>
          cases b with
          | true => obtain ⟨raw, hraw, -⟩ := ht _ List.mem_cons_self; cases hraw
          | false => exact .fails (l := []) rfl NoResponse.nil rfl rfl
      | datagram raw =>
          obtain ⟨o, ho⟩ := Dial.matching_ok natt k raw
          cases o with
          | some ike =>
              have hrecv (rest : List Arrival) :
                  Dial.recvMatchingFrom natt k (.datagram raw :: rest) = (.ok ike, rest) := by
                rw [Dial.recvMatchingFrom, ho]
              cases b with
              | true => exact .struck (l := []) rfl NoResponse.nil ho (hrecv _)
              | false => exact .alike (l := []) rfl NoResponse.nil ho (hrecv _) (hrecv _)
          | none =>
              have hskip (rest : List Arrival) :
                  Dial.recvMatchingFrom natt k (.datagram raw :: rest) =
                    Dial.recvMatchingFrom natt k rest := by
                rw [Dial.recvMatchingFrom, ho]
              have hgen : Dial.recvMatchingFrom natt k (Stream.genuine ((.datagram raw, b) :: t)) =
                  Dial.recvMatchingFrom natt k (Stream.genuine t) := by
                cases b with
                | true => rfl
                | false => exact hskip _
              have hquiet : (Arrival.datagram raw).responds natt k = false := by
                rw [Arrival.responds, ho]
              cases hrest with
              | alike split quiet hraw whole genuine =>
                  exact .alike (congrArg _ split) (.cons hquiet quiet) hraw ((hskip _).trans whole)
                    (hgen.trans genuine)
              | fails split quiet whole genuine =>
                  exact .fails (congrArg _ split) (.cons hquiet quiet) ((hskip _).trans whole)
                    (hgen.trans genuine)
              | struck split quiet hraw whole =>
                  exact .struck (congrArg _ split) (.cons hquiet quiet) hraw ((hskip _).trans whole)

theorem head?_whole_ne_cancelled {kind : Bytes → Prop} {t : Stream} (ht : t.Inserts kind)
    (h : t.genuine.head? ≠ some .cancelled) : t.whole.head? ≠ some .cancelled := by
  cases t with
  | nil => exact h
  | cons x t =>
      obtain ⟨a, b⟩ := x
      cases b with
      | false => exact h
      | true =>
          obtain ⟨raw, rfl, -⟩ := ht _ List.mem_cons_self
          exact fun hc => nomatch hc

/-! ## One exchange -/

/-- The same run, with other arrivals to come. -/
def Dialing.fed (d : Dialing) (inbox : List Arrival) (taken : List Nat) : Dialing :=
  { d with inbox, taken }

/-- An exchange with the inserted datagrams, beside one that succeeds without them. -/
inductive Exchanges (k : UInt32) (d : Dialing) (t : Stream) (taken taken' : List Nat) (ike : Bytes)
    (d₂ : Dialing) (run : Go Bytes × Dialing) : Prop where
  | alike {l t' : Stream} {raw : Bytes} {sent : List Bytes}
      (split : t = l ++ (.datagram raw, false) :: t') (quiet : NoResponse d.s.nattMode k l)
      (hraw : Dial.matching d.s.nattMode k raw = .ok (some ike))
      (whole : run = (.ok ike, { d with sent }.fed t'.whole taken))
      (genuine : d₂ = { d with sent }.fed t'.genuine taken')
  | struck {l t' : Stream} {raw ike' : Bytes} {sent : List Bytes}
      (split : t = l ++ (.datagram raw, true) :: t') (quiet : NoResponse d.s.nattMode k l)
      (hraw : Dial.matching d.s.nattMode k raw = .ok (some ike'))
      (whole : run = (.ok ike', { d with sent }.fed t'.whole taken))

section

variable {w : World} {kind : Bytes → Prop}

theorem attempts_of_unsent {req : Bytes} {k : UInt32} {n : Nat} {d : Dialing}
    (hsend : ¬ w.sendOK d.sent.length = true) :
    (Dial.attempts w req k (n + 1) d).1 = fail "transport: send failed" := by
  rw [Dial.attempts_succ]
  simp only [hsend]
  rfl

theorem attempts_of_recv {req ike : Bytes} {k : UInt32} {n : Nat} {d : Dialing}
    {rest : List Arrival} (hsend : w.sendOK d.sent.length = true)
    (hrecv : Dial.recvMatchingFrom d.s.nattMode k d.inbox = (.ok ike, rest)) :
    Dial.attempts w req k (n + 1) d =
      (.ok ike, { d with sent := d.s.frame req :: d.sent, inbox := rest }) := by
  rw [Dial.attempts_succ]
  simp only [hsend, hrecv, if_true]

theorem attempts_of_timeout {req : Bytes} {k : UInt32} {n : Nat} {d : Dialing} {text : String}
    {rest : List Arrival} (hsend : w.sendOK d.sent.length = true)
    (hrecv : Dial.recvMatchingFrom d.s.nattMode k d.inbox = (fail text, rest)) :
    Dial.attempts w req k (n + 1) d =
      if rest.head? = some .cancelled then
        (fail "context canceled", { d with sent := d.s.frame req :: d.sent, inbox := rest })
      else
        Dial.attempts w req k n { d with sent := d.s.frame req :: d.sent, inbox := rest } := by
  rw [Dial.attempts_succ]
  simp only [hsend, hrecv, fail, if_true]

theorem attempts_twofold {req ike : Bytes} {k : UInt32} {n : Nat} {d d₂ : Dialing} {t : Stream}
    {taken taken' : List Nat} (ht : t.Inserts kind)
    (h : Dial.attempts w req k n (d.fed t.genuine taken') = (.ok ike, d₂)) :
    Exchanges k d t taken taken' ike d₂ (Dial.attempts w req k n (d.fed t.whole taken)) := by
  induction n generalizing d t with
  | zero => cases congrArg Prod.fst h
  | succ n ih =>
      by_cases hsend : w.sendOK d.sent.length = true
      · cases receives d.s.nattMode k ht with
        | alike split quiet hraw whole genuine =>
            cases (attempts_of_recv (d := d.fed t.genuine taken') hsend genuine).symm.trans h
            exact .alike split quiet hraw (attempts_of_recv hsend whole) rfl
        | fails split quiet whole genuine =>
            rename_i l t' text
            have hgen := (attempts_of_timeout (n := n) (d := d.fed t.genuine taken') hsend
              genuine).symm.trans h
            by_cases hcancel : t'.genuine.head? = some .cancelled
            · rw [if_pos hcancel] at hgen
              cases congrArg Prod.fst hgen
            rw [if_neg hcancel] at hgen
            have ht' : t'.Inserts kind := Stream.Inserts.suffix (split ▸ ht)
            rw [attempts_of_timeout (d := d.fed t.whole taken) hsend whole,
              if_neg (head?_whole_ne_cancelled ht' hcancel)]
            cases ih (d := { d with sent := d.s.frame req :: d.sent }) ht' hgen with
            | alike split' quiet' hraw whole' genuine' =>
                refine .alike ?_ (quiet.append quiet') hraw whole' genuine'
                rw [split, split', List.append_assoc]
            | struck split' quiet' hraw whole' =>
                refine .struck ?_ (quiet.append quiet') hraw whole'
                rw [split, split', List.append_assoc]
        | struck split quiet hraw whole =>
            exact .struck split quiet hraw (attempts_of_recv hsend whole)
      · have hunsent : (Dial.attempts w req k (n + 1) (d.fed t.genuine taken')).1 = _ :=
          attempts_of_unsent hsend
        rw [h] at hunsent
        cases hunsent

theorem exchange_twofold {req ike : Bytes} {k : UInt32} {d d₂ : Dialing} {t : Stream}
    {taken taken' : List Nat} (ht : t.Inserts kind)
    (h : Dial.exchange w req k (d.fed t.genuine taken') = (.ok ike, d₂)) :
    Exchanges k d t taken taken' ike d₂ (Dial.exchange w req k (d.fed t.whole taken)) :=
  attempts_twofold ht h

theorem length_lt_of_quiet {natt : Bool} {k : UInt32} {l t : Stream} {a : Arrival}
    {pre rest : List Arrival} (hl : NoResponse natt k l) (ha : a.responds natt k = true)
    (h : l.genuine ++ t.genuine = pre ++ a :: rest) : rest.length < t.genuine.length := by
  rcases List.append_eq_append_iff.mp h with ⟨m, -, hm⟩ | ⟨m, hm, hrest⟩
  · rw [hm, List.length_append, List.length_cons]
    omega
  · cases m with
    | nil =>
        rw [List.nil_append] at hrest
        rw [← hrest]
        exact Nat.lt_succ_self _
    | cons b m =>
        cases hrest
        have hmem : a ∈ l.genuine := by
          rw [hm]
          exact List.mem_append_right _ List.mem_cons_self
        obtain ⟨x, hx, rfl⟩ := List.mem_map.mp hmem
        rw [hl x (List.mem_filter.mp hx).1] at ha
        cases ha

/-- An inserted datagram that is taken stands before the response. -/
theorem length_lt_of_struck {req ike raw : Bytes} {k : UInt32} {d d₂ : Dialing} {l t : Stream}
    {taken : List Nat} (quiet : NoResponse d.s.nattMode k l)
    (h : Dial.exchange w req k
      (d.fed (Stream.genuine (l ++ (.datagram raw, true) :: t)) taken) = (.ok ike, d₂)) :
    d₂.inbox.length < t.genuine.length := by
  obtain ⟨-, -, pre, raw₂, hpre, hraw₂⟩ := Dial.exchange_eq_ok h
  dsimp only [Dialing.fed] at hpre hraw₂
  rw [Stream.genuine_append, Stream.genuine_true] at hpre
  exact length_lt_of_quiet quiet (responds_of_matching hraw₂) hpre

end

/-! ## Streams that change nothing -/

section

variable (natt : Bool) (next : UInt32 → UInt32)

/-- The Message ID that is awaited behind a stream, if `k` is awaited at its start. -/
def awaited (k : UInt32) : Stream → UInt32
  | [] => k
  | (_, true) :: t => awaited k t
  | (a, false) :: t => awaited (if a.responds natt k then next k else k) t

/-- No inserted datagram is the response that is awaited where it stands. -/
def Inert (k : UInt32) : Stream → Prop
  | [] => True
  | (a, true) :: t => a.responds natt k = false ∧ Inert k t
  | (a, false) :: t => Inert (if a.responds natt k then next k else k) t

instance decidableInert : ∀ (k : UInt32) (t : Stream), Decidable (Inert natt next k t)
  | _, [] => isTrue trivial
  | k, (_, true) :: t =>
      have := decidableInert k t
      inferInstanceAs (Decidable (_ ∧ _))
  | _, (_, false) :: t => decidableInert _ t

end

section

variable {natt : Bool} {next : UInt32 → UInt32}

theorem awaited_append (k : UInt32) (l t : Stream) :
    awaited natt next k (l ++ t) = awaited natt next (awaited natt next k l) t := by
  induction l generalizing k with
  | nil => rfl
  | cons x l ih =>
      obtain ⟨a, b⟩ := x
      cases b with
      | true => exact ih k
      | false => exact ih _

theorem inert_append (k : UInt32) (l t : Stream) :
    Inert natt next k (l ++ t) ↔
      Inert natt next k l ∧ Inert natt next (awaited natt next k l) t := by
  induction l generalizing k with
  | nil => exact (and_iff_right trivial).symm
  | cons x l ih =>
      obtain ⟨a, b⟩ := x
      cases b with
      | true => exact (and_congr_right fun _ => ih k).trans and_assoc.symm
      | false => exact ih _

theorem NoResponse.inert {k : UInt32} {l : Stream} (h : NoResponse natt k l) :
    Inert natt next k l ∧ awaited natt next k l = k := by
  induction l with
  | nil => exact ⟨trivial, rfl⟩
  | cons x l ih =>
      obtain ⟨hx, hl⟩ := List.forall_mem_cons.mp h
      obtain ⟨a, b⟩ := x
      cases b with
      | true => exact ⟨⟨hx, (ih hl).1⟩, (ih hl).2⟩
      | false =>
          rw [Inert, awaited, hx]
          exact ih hl

/-- Up to and with the response that is taken. -/
theorem NoResponse.inert_concat {k : UInt32} {l : Stream} {a : Arrival} (h : NoResponse natt k l)
    (ha : a.responds natt k = true) :
    Inert natt next k (l ++ [(a, false)]) ∧ awaited natt next k (l ++ [(a, false)]) = next k := by
  obtain ⟨hl, hk⟩ : Inert natt next k l ∧ awaited natt next k l = k := h.inert
  rw [inert_append, awaited_append, hk]
  refine ⟨⟨hl, trivial⟩, ?_⟩
  rw [awaited, ha]
  rfl

end

/-! ## What does not receive -/

/-- The call neither reads nor changes what is to come. -/
def Deaf {α : Type} (x : Dial α) : Prop :=
  ∀ d inbox taken, x (d.fed inbox taken) = ((x d).1, (x d).2.fed inbox taken)

namespace Deaf

variable {α β : Type} {x : Dial α}

theorem lift (r : Go α) : Deaf (Proc.lift r) := fun _ _ _ => rfl

theorem session : Deaf Dial.session := fun _ _ _ => rfl

theorem setSession (f : Handshake → Handshake) : Deaf (Dial.setSession f) := fun _ _ _ => rfl

theorem note (e : Moment) : Deaf (Dial.note e) := fun _ _ _ => rfl

theorem randRead (w : World) : Deaf (Dial.randRead w) := fun _ _ _ => rfl

theorem deref (field : Handshake → Option α) : Deaf (Dial.deref field) := by
  intro d inbox taken
  unfold Dial.deref Dialing.fed
  dsimp only
  cases field d.s with
  | none => rfl
  | some a => rfl

end Deaf

/-! ## Runs that go on -/

/-- What a later state of a run has in common with an earlier one. -/
structure Later (d d' : Dialing) : Prop where
  log : d.log <:+ d'.log
  inbox : d'.inbox.length ≤ d.inbox.length
  taken : d.taken ⊆ d'.taken

theorem Later.refl (d : Dialing) : Later d d := ⟨List.suffix_rfl, le_rfl, List.Subset.refl _⟩

theorem Later.trans {d d' d'' : Dialing} (h : Later d d') (h' : Later d' d'') : Later d d'' :=
  ⟨h.log.trans h'.log, h'.inbox.trans h.inbox, fun _ hn => h'.taken (h.taken hn)⟩

/-- The call only goes on. -/
def Onward {α : Type} (x : Dial α) : Prop := ∀ d, Later d (x d).2

namespace Onward

variable {α β : Type} {x : Dial α}

theorem lift (r : Go α) : Onward (Proc.lift r) := fun d => .refl d

theorem pure (a : α) : Onward (Pure.pure a) := fun d => .refl d

theorem session : Onward Dial.session := fun d => .refl d

theorem setSession (f : Handshake → Handshake) : Onward (Dial.setSession f) :=
  fun _ => ⟨List.suffix_rfl, le_rfl, List.Subset.refl _⟩

theorem note (e : Moment) : Onward (Dial.note e) :=
  fun _ => ⟨List.suffix_cons _ _, le_rfl, List.Subset.refl _⟩

theorem noteTaken : Onward Dial.noteTaken :=
  fun _ => ⟨List.suffix_rfl, le_rfl, List.subset_cons_self _ _⟩

theorem randRead (w : World) : Onward (Dial.randRead w) :=
  fun _ => ⟨List.suffix_rfl, le_rfl, List.Subset.refl _⟩

theorem deref (field : Handshake → Option α) : Onward (Dial.deref field) := by
  intro d
  unfold Dial.deref
  split <;> exact .refl d

theorem bind {f : α → Dial β} (hx : Onward x) (hf : ∀ a, Onward (f a)) : Onward (x >>= f) := by
  intro d
  have hd := hx d
  rcases hrun : x d with ⟨r, d'⟩
  rw [hrun] at hd
  cases r with
  | ok a =>
      rw [Proc.bind_of_ok hrun]
      exact hd.trans (hf a d')
  | error e =>
      rw [Proc.bind_of_error hrun]
      exact hd

theorem wrap {pre : String} (hx : Onward x) : Onward (Proc.wrap pre x) := hx

theorem attempts (w : World) (req : Bytes) (k : UInt32) (n : Nat) :
    Onward (Dial.attempts w req k n) := by
  induction n with
  | zero => exact fun d => .refl d
  | succ n ih =>
      intro d
      have hstep (rest : List Arrival) (hrest : rest.length ≤ d.inbox.length) :
          Later d { d with sent := d.s.frame req :: d.sent, inbox := rest } :=
        ⟨List.suffix_rfl, hrest, List.Subset.refl _⟩
      have hlen := (Dial.recvMatchingFrom_suffix d.s.nattMode k d.inbox).length_le
      rw [Dial.attempts_succ]
      generalize Dial.recvMatchingFrom d.s.nattMode k d.inbox = r at hlen
      cases w.sendOK d.sent.length with
      | false => exact hstep _ le_rfl
      | true =>
          obtain ⟨r, rest⟩ := r
          cases r with
          | ok ike => exact hstep rest hlen
          | error e =>
              cases e with
              | err text =>
                  by_cases hc : rest.head? = some .cancelled
                  · simp only [hc, if_true]
                    exact hstep rest hlen
                  · simp only [hc, if_true, if_false]
                    exact (hstep rest hlen).trans (ih _)
              | panic => exact hstep rest hlen
              | diverge => exact hstep rest hlen

theorem exchange (w : World) (req : Bytes) (k : UInt32) : Onward (Dial.exchange w req k) :=
  fun d => attempts w req k _ d

end Onward

/-! ## Two runs -/

/-- What two runs of a procedure are compared by. -/
structure Comparison where
  natt : Bool
  /-- The datagrams that may be inserted. -/
  kind : Bytes → Prop
  /-- The Message ID that is awaited behind a response. -/
  next : UInt32 → UInt32
  awaits : Handshake → UInt32
  /-- What becomes of a run that takes an inserted datagram, with the stream behind it,
  beside the run that does not receive it. -/
  Struck : Stream → (ok : Bool) → Dialing → Dialing → Prop
  /-- What an exchange that fails without the inserted datagrams leaves. -/
  Lost : Dialing → Prop
  /-- The response stands behind the inserted datagram. -/
  struck_inbox : ∀ {u : Stream} {ok : Bool} {d₁ d₂ : Dialing}, Struck u ok d₁ d₂ →
    d₂.inbox.length < u.genuine.length
  struck_onward : ∀ {u : Stream} {ok ok' : Bool} {d₁ d₁' d₂ d₂' : Dialing}, Struck u ok d₁ d₂ →
    (ok = false → ok' = false ∧ d₁' = d₁) → Later d₁ d₁' → Later d₂ d₂' → Struck u ok' d₁' d₂'

/-- A run that receives `t` beside one that does not receive what is inserted in it. -/
inductive Beside (m : Comparison) {α : Type} (x : Dial α) (d : Dialing) (t : Stream)
    (tk tk' : List Nat) : Prop where
  /-- Both end in the same way, behind the same arrival. -/
  | alike {l t' : Stream} {r : Go α} {d' : Dialing} {tk₁ tk₂ : List Nat} (split : t = l ++ t')
      (inert : Inert m.natt m.next (m.awaits d.s) l)
      (whole : x (d.fed t.whole tk) = (r, d'.fed t'.whole tk₁))
      (genuine : x (d.fed t.genuine tk') = (r, d'.fed t'.genuine tk₂))
      (awaits : ∀ a, r = .ok a → m.awaits d'.s = awaited m.natt m.next (m.awaits d.s) l)
      (taken : ∀ n ∈ tk₁, n ∈ tk ∨ ∃ a, t.reverse[n]? = some (a, false))
  /-- An inserted datagram is taken. -/
  | struck {l t' : Stream} {a : Arrival} (split : t = l ++ (a, true) :: t')
      (inert : Inert m.natt m.next (m.awaits d.s) l)
      (responds : a.responds m.natt (awaited m.natt m.next (m.awaits d.s) l) = true)
      (struck : m.Struck t' (x (d.fed t.whole tk)).1.isOk (x (d.fed t.whole tk)).2
        (x (d.fed t.genuine tk')).2)
  /-- The run without the inserted datagrams fails in an exchange. -/
  | lost {e : Fault} {d₂ : Dialing} (genuine : x (d.fed t.genuine tk') = (.error e, d₂))
      (lost : m.Lost d₂)

namespace Beside

variable {m : Comparison} {α β : Type} {x : Dial α} {d : Dialing} {t : Stream} {tk tk' : List Nat}

theorem deaf (hx : Deaf x)
    (hawaits : ∀ a d', x d = (.ok a, d') → m.awaits d'.s = m.awaits d.s) :
    Beside m x d t tk tk' := by
  rcases hrun : x d with ⟨r, d'⟩
  have hfed (inbox : List Arrival) (taken : List Nat) :
      x (d.fed inbox taken) = (r, d'.fed inbox taken) := by
    rw [hx, hrun]
  refine .alike (l := []) rfl trivial (hfed _ _) (hfed _ _) ?_ fun n hn => .inl hn
  rintro a rfl
  exact hawaits a d' hrun

/-- The state of a run after more of it. -/
theorem struck_bind {f : α → Dial β} {u : Stream} {d₁ d₂ : Dialing} (hf : ∀ a, Onward (f a))
    (h : m.Struck u (x d₁).1.isOk (x d₁).2 (x d₂).2) :
    m.Struck u ((x >>= f) d₁).1.isOk ((x >>= f) d₁).2 ((x >>= f) d₂).2 := by
  have hbase : Later (x d₂).2 ((x >>= f) d₂).2 := by
    rcases hrun : x d₂ with ⟨r, d'⟩
    cases r with
    | ok a =>
        rw [Proc.bind_of_ok hrun]
        exact hf a d'
    | error e =>
        rw [Proc.bind_of_error hrun]
        exact .refl _
  rcases hrun : x d₁ with ⟨r, d'⟩
  rw [hrun] at h
  cases r with
  | ok a =>
      rw [Proc.bind_of_ok hrun]
      exact m.struck_onward h (fun hok => nomatch hok) (hf a d') hbase
  | error e =>
      rw [Proc.bind_of_error hrun]
      exact m.struck_onward h (fun _ => ⟨rfl, rfl⟩) (.refl _) hbase

theorem bind {f : α → Dial β} (hx : Beside m x d t tk tk') (honward : ∀ a, Onward (f a))
    (hf : ∀ a d' l t' tk₁ tk₂, t = l ++ t' → x (d.fed t.whole tk) = (.ok a, d'.fed t'.whole tk₁) →
      Beside m (f a) d' t' tk₁ tk₂) : Beside m (x >>= f) d t tk tk' := by
  cases hx with
  | lost genuine lost => exact .lost (Proc.bind_of_error genuine) lost
  | struck split inert responds struck =>
      exact .struck split inert responds (struck_bind honward struck)
  | alike split inert whole genuine awaits taken =>
      rename_i l t' r d' tk₁ tk₂
      cases r with
      | error e =>
          exact .alike split inert (Proc.bind_of_error whole) (Proc.bind_of_error genuine)
            (fun _ h => nomatch h) taken
      | ok a =>
          have hawaits := awaits a rfl
          cases hf a d' l t' tk₁ tk₂ split whole with
          | lost genuine' lost =>
              exact .lost ((Proc.bind_of_ok genuine).trans genuine') lost
          | struck split' inert' responds' struck' =>
              rename_i l' t'' b
              have hsplit : t = (l ++ l') ++ (b, true) :: t'' := by
                rw [split, split', List.append_assoc]
              refine .struck hsplit ?_ ?_ ?_
              · rw [inert_append, ← hawaits]
                exact ⟨inert, inert'⟩
              · rwa [awaited_append, ← hawaits]
              · rwa [Proc.bind_of_ok whole, Proc.bind_of_ok genuine]
          | alike split' inert' whole' genuine' awaits' taken' =>
              rename_i l' t'' r' d'' tk₃ tk₄
              have hsplit : t = (l ++ l') ++ t'' := by rw [split, split', List.append_assoc]
              refine .alike hsplit ?_ ((Proc.bind_of_ok whole).trans whole')
                ((Proc.bind_of_ok genuine).trans genuine') ?_ ?_
              · rw [inert_append, ← hawaits]
                exact ⟨inert, inert'⟩
              · intro b hb
                rw [awaited_append, ← hawaits]
                exact awaits' b hb
              · intro n hn
                rcases taken' n hn with hold | ⟨a', ha'⟩
                · exact taken n hold
                · refine .inr ⟨a', ?_⟩
                  rw [split, List.reverse_append, List.getElem?_append_left, ha']
                  exact (List.getElem?_eq_some_iff.mp ha').1

theorem wrap {pre : String} (hx : Beside m x d t tk tk') :
    Beside m (Proc.wrap pre x) d t tk tk' := by
  cases hx with
  | lost genuine lost =>
      rename_i e d₂
      obtain ⟨e', he'⟩ : ∃ e', wrapErr pre (.error e : Go α) = .error e' := by
        cases e <;> exact ⟨_, rfl⟩
      have hwrap : Proc.wrap pre x (d.fed t.genuine tk') = (.error e', d₂) := by
        rw [Proc.wrap, genuine, he']
      exact .lost hwrap lost
  | struck split inert responds struck =>
      refine .struck split inert responds (m.struck_onward struck ?_ (.refl _) (.refl _))
      intro hok
      refine ⟨?_, rfl⟩
      rw [Proc.wrap]
      cases hr : (x (d.fed t.whole tk)).1 with
      | ok a =>
          rw [hr] at hok
          cases hok
      | error e => cases e <;> rfl
  | alike split inert whole genuine awaits taken =>
      refine .alike split inert (by rw [Proc.wrap, whole]) (by rw [Proc.wrap, genuine])
        (fun a ha => awaits a (wrapErr_eq_ok.mp ha)) taken

/-- The rule by which a property of the run with the inserted datagrams is decided: `l` is
what the run without them reads, up to its last arrival. -/
theorem inert_iff {l rest : Stream} {P : Prop} (hx : Beside m x d (l ++ rest) tk tk')
    (hlast : ∀ y, l.getLast? = some y → y.2 = false)
    (hread : (x (d.fed (Stream.genuine (l ++ rest)) tk')).2.inbox = rest.genuine)
    (hlost : ∀ e d₂, x (d.fed (Stream.genuine (l ++ rest)) tk') = (.error e, d₂) → ¬ m.Lost d₂)
    (halike : ∀ (r : Go α) (d' : Dialing) (t' : List Arrival) (tk₁ tk₂ : List Nat), x (d.fed (Stream.whole (l ++ rest)) tk) = (r, d'.fed t' tk₁) →
      (∃ t'', x (d.fed (Stream.genuine (l ++ rest)) tk') = (r, d'.fed t'' tk₂)) →
      (∀ n ∈ tk₁, n ∈ tk ∨ ∃ a, (l ++ rest).reverse[n]? = some (a, false)) → P)
    (hstruck : ∀ l₁ a t₁, l ++ rest = l₁ ++ (a, true) :: t₁ →
      m.Struck t₁ (x (d.fed (Stream.whole (l ++ rest)) tk)).1.isOk
        (x (d.fed (Stream.whole (l ++ rest)) tk)).2
        (x (d.fed (Stream.genuine (l ++ rest)) tk')).2 → ¬ P) :
    P ↔ Inert m.natt m.next (m.awaits d.s) l := by
  cases hx with
  | lost genuine lost => exact absurd lost (hlost _ _ genuine)
  | alike split inert whole genuine awaits taken =>
      rename_i l₁ t₁ r d' tk₁ tk₂
      refine iff_of_true (halike _ _ _ _ _ whole ⟨_, genuine⟩ taken) ?_
      rw [genuine] at hread
      have hgen : t₁.genuine = rest.genuine := hread
      rcases List.append_eq_append_iff.mp split with ⟨mid, rfl, -⟩ | ⟨mid, rfl, rfl⟩
      · exact ((inert_append _ _ _).mp inert).1
      · rw [Stream.genuine_append, List.append_left_eq_self] at hgen
        cases hmid : mid.getLast? with
        | none =>
            rw [List.getLast?_eq_none_iff.mp hmid, List.append_nil]
            exact inert
        | some y =>
            -- The last arrival of `l` is not an inserted one.
            have hy : y.2 = false := hlast y (by rw [List.getLast?_append, hmid]; rfl)
            have hmem : y.1 ∈ Stream.genuine mid := by
              refine List.mem_map_of_mem (List.mem_filter.mpr ⟨List.mem_of_getLast? hmid, ?_⟩)
              rw [hy]
              rfl
            rw [hgen] at hmem
            cases hmem
  | struck split inert responds struck =>
      rename_i l₁ t₁ a
      refine iff_of_false (hstruck _ _ _ split struck) fun hl => ?_
      have hless := m.struck_inbox struck
      rw [hread] at hless
      have hbehind (mid : Stream) (h : rest = mid ++ (a, true) :: t₁) : False := by
        rw [h, Stream.genuine_append, List.length_append, Stream.genuine_true] at hless
        omega
      rcases List.append_eq_append_iff.mp split with ⟨mid, -, hrest⟩ | ⟨mid, rfl, hrest⟩
      · exact hbehind mid hrest
      · cases mid with
        | nil => exact hbehind [] hrest.symm
        | cons y mid =>
            cases hrest
            rw [inert_append] at hl
            rw [hl.2.1] at responds
            cases responds

end Beside

/-! ## Procedures -/

/-- The runs of a procedure can be compared from where `P` holds, and `Q` holds of what it
returns. -/
structure Comparable (m : Comparison) {α : Type} (P : Handshake → List Moment → Prop)
    (Q : α → Handshake → List Moment → Prop) (x : Dial α) : Prop where
  beside : ∀ d t tk tk', t.Inserts m.kind → P d.s d.log → Beside m x d t tk tk'
  keeps : ∀ d a d', P d.s d.log → x d = (.ok a, d') → Q a d'.s d'.log
  onward : Onward x

namespace Comparable

variable {m : Comparison} {α β : Type} {P : Handshake → List Moment → Prop}
  {Q : α → Handshake → List Moment → Prop} {R : β → Handshake → List Moment → Prop} {x : Dial α}

theorem bind {f : α → Dial β} (hx : Comparable m P Q x)
    (hf : ∀ a, Comparable m (Q a) R (f a)) : Comparable m P R (x >>= f) where
  onward := hx.onward.bind fun a => (hf a).onward
  keeps d b d'' hd h := by
    obtain ⟨a, d', hxd, hfa⟩ := Proc.bind_eq_ok h
    exact (hf a).keeps d' b d'' (hx.keeps d a d' hd hxd) hfa
  beside d t tk tk' ht hd := by
    refine (hx.beside d t tk tk' ht hd).bind (fun a => (hf a).onward) ?_
    intro a d' l t' tk₁ tk₂ split hrun
    have hd' : Q a d'.s d'.log := hx.keeps (d.fed t.whole tk) a (d'.fed t'.whole tk₁) hd hrun
    exact (hf a).beside d' t' tk₁ tk₂ (Stream.Inserts.suffix (split ▸ ht)) hd'

theorem wrap {pre : String} (hx : Comparable m P Q x) : Comparable m P Q (Proc.wrap pre x) where
  onward := hx.onward
  keeps d a d' hd h := hx.keeps d a d' hd (Proc.wrap_eq_ok.mp h)
  beside d t tk tk' ht hd := (hx.beside d t tk tk' ht hd).wrap

theorem ite {p : Prop} [Decidable p] {y : Dial α} (hx : Comparable m P Q x)
    (hy : Comparable m P Q y) : Comparable m P Q (if p then x else y) := by
  split
  · exact hx
  · exact hy

theorem deaf (hx : Deaf x) (honward : Onward x)
    (hkeeps : ∀ d a d', P d.s d.log → x d = (.ok a, d') →
      Q a d'.s d'.log ∧ m.awaits d'.s = m.awaits d.s) : Comparable m P Q x where
  onward := honward
  keeps d a d' hd h := (hkeeps d a d' hd h).1
  beside d _ _ _ _ hd := .deaf hx fun a d' h => (hkeeps d a d' hd h).2

theorem lift (r : Go α) : Comparable m P (fun _ => P) (Proc.lift r) :=
  .deaf (.lift r) (.lift r) fun d a d' hd h => by
    obtain ⟨-, rfl⟩ := Proc.lift_eq_ok h
    exact ⟨hd, rfl⟩

theorem pure (a : α) : Comparable m P (fun _ => P) (Pure.pure a) := lift (.ok a)

theorem raise (text : String) : Comparable m P (fun _ => P) (Proc.raise text : Dial α) := lift _

theorem session : Comparable m P (fun _ => P) Dial.session :=
  .deaf .session .session fun d a d' hd h => by
    cases h
    exact ⟨hd, rfl⟩

theorem session_eq : Comparable m P (fun a s log => P s log ∧ a = s) Dial.session :=
  .deaf .session .session fun d a d' hd h => by
    cases h
    exact ⟨⟨hd, rfl⟩, rfl⟩

theorem deref (field : Handshake → Option α) : Comparable m P (fun _ => P) (Dial.deref field) :=
  .deaf (.deref field) (.deref field) fun d a d' hd h => by
    obtain ⟨-, rfl⟩ := Dial.deref_eq_ok h
    exact ⟨hd, rfl⟩

theorem randRead (w : World) : Comparable m P (fun _ => P) (Dial.randRead w) :=
  .deaf (.randRead w) (.randRead w) fun d a d' hd h => by
    cases h
    exact ⟨hd, rfl⟩

theorem setSession {P' : Handshake → List Moment → Prop} {f : Handshake → Handshake}
    (hP : ∀ s log, P s log → P' (f s) log) (hawaits : ∀ s, m.awaits (f s) = m.awaits s) :
    Comparable m P (fun _ => P') (Dial.setSession f) :=
  .deaf (.setSession f) (.setSession f) fun d a d' hd h => by
    cases h
    exact ⟨hP _ _ hd, hawaits _⟩

theorem note {e : Moment} (hP : ∀ s log, P s log → P s (e :: log)) :
    Comparable m P (fun _ => P) (Dial.note e) :=
  .deaf (.note e) (.note e) fun d a d' hd h => by
    cases h
    exact ⟨hP _ _ hd, rfl⟩

end Comparable

end GoIpsec.Session
