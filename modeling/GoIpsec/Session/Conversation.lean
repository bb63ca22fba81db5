import GoIpsec.Session.IkeAuth

/-!
# The EAP conversation

The requests that were answered, newest first, each with the state it left.  The
responder chooses them, in any number and order.

The inputs of the key are those of the last challenge.  A Success proves the challenge
that was the last one when it came.  So the key comes from a proved challenge exactly if
no challenge comes after the last Success (`Conversed.proved_iff`).
-/

set_option linter.dupNamespace false

namespace GoIpsec.Session

open Golang Ikemsg Ikesa Eap

/-- The requests that were answered so far. -/
inductive Conversed (w : World) (user pass : Bytes) : MSCHAPv2 → List (Packet × MSCHAPv2) → Prop where
  | start : Conversed w user pass (newMSCHAPv2 user pass) []
  | answer {m m' : MSCHAPv2} {as : List (Packet × MSCHAPv2)} {rand : RandRead} {req resp : Packet}
      (h : Conversed w user pass m as)
      (hreq : Dial.buildEAPResponse w rand req m = (.ok resp, m')) :
      Conversed w user pass m' ((req, m') :: as)

section

variable {w : World} {user pass : Bytes}

/-- What an answer does to the state: a challenge leaves the flag, a Success sets it and
nothing else, and any other request leaves everything. -/
inductive Answers (req : Packet) (m : MSCHAPv2) : MSCHAPv2 → Prop where
  | challenge {m' : MSCHAPv2} (hreq : req.isChallenge = true) (hsucc : req.isSuccess = false)
      (hm : m'.authChecked = m.authChecked) : Answers req m m'
  | success {msg : Bytes} (hreq : req.isSuccess = true) (hchal : req.isChallenge = false)
      (hne : m.authResponse ≠ []) (hmsg : messageBody req.data = .ok msg)
      (hstart : m.authResponse <+: msg) : Answers req m { m with authChecked := true }
  | other (hchal : req.isChallenge = false) (hsucc : req.isSuccess = false) : Answers req m m

theorem buildEAPResponse_answers {rand : RandRead} {req resp : Packet} {m m' : MSCHAPv2}
    (h : Dial.buildEAPResponse w rand req m = (.ok resp, m')) : Answers req m m' := by
  unfold Dial.buildEAPResponse at h
  split at h
  · rename_i htype
    cases h
    exact .other (by simp [Packet.isChallenge, htype, typeIdentity, typeMSCHAPv2])
      (by simp [Packet.isSuccess, htype, typeIdentity, typeMSCHAPv2])
  split at h
  · rename_i htype
    cases hdata : req.data with
    | nil =>
        simp only [hdata] at h
        cases congrArg Prod.fst h
    | cons op rest =>
        simp only [hdata] at h
        split at h
        · rename_i hop
          have hkeep := handleChallenge_keeps w.eap rand req m.authChecked m rfl
          rw [h] at hkeep
          refine .challenge ?_ ?_ hkeep
          · simp [Packet.isChallenge, htype, hdata, hop]
          · simp [Packet.isSuccess, hdata, hop, opChallenge, opSuccess]
        split at h
        · rename_i hop
          obtain ⟨rfl, hne, msg, hmsg, hstart⟩ := handleSuccess_eq_ok h
          refine .success ?_ ?_ hne hmsg hstart
          · simp [Packet.isSuccess, htype, hdata, hop]
          · simp [Packet.isChallenge, hdata, hop, opChallenge, opSuccess]
        split at h
        · cases congrArg Prod.fst h
        · cases congrArg Prod.fst h
  split at h
  · rename_i htype
    cases h
    exact .other (by simp [Packet.isChallenge, htype, typeNotification, typeMSCHAPv2])
      (by simp [Packet.isSuccess, htype, typeNotification, typeMSCHAPv2])
  · cases congrArg Prod.fst h

/-- The conversation up to a request. -/
theorem Conversed.older {m : MSCHAPv2} {newer older : List (Packet × MSCHAPv2)}
    {x : Packet × MSCHAPv2} (h : Conversed w user pass m (newer ++ x :: older)) :
    ∃ m₀, Conversed w user pass m₀ older ∧ Answers x.1 m₀ x.2 := by
  induction newer generalizing m with
  | nil =>
      cases h with
      | answer h hreq => exact ⟨_, h, buildEAPResponse_answers hreq⟩
  | cons y newer ih =>
      cases h with
      | answer h hreq => exact ih h

/-- Only a challenge changes the inputs of the key. -/
theorem Conversed.inputs_eq {m : MSCHAPv2} {newer older : List (Packet × MSCHAPv2)}
    {q : Packet × MSCHAPv2} (h : Conversed w user pass m (newer ++ q :: older))
    (hnone : ∀ x ∈ newer, x.1.isChallenge = false) : m.mskInputs = q.2.mskInputs := by
  induction newer generalizing m with
  | nil =>
      cases h with
      | answer h hreq => rfl
  | cons y newer ih =>
      obtain ⟨hy, hnewer⟩ := List.forall_mem_cons.mp hnone
      cases h with
      | answer h hreq =>
          have hprev := ih h hnewer
          cases buildEAPResponse_answers hreq with
          | challenge hchal _ _ => rw [hchal] at hy; cases hy
          | success _ _ _ _ _ => exact hprev
          | other _ _ => exact hprev

/-- The last challenge of a conversation, in the state `m`. -/
structure LastChallenge (m : MSCHAPv2) (as newer older : List (Packet × MSCHAPv2))
    (q : Packet × MSCHAPv2) : Prop where
  split : as = newer ++ q :: older
  challenge : q.1.isChallenge = true
  last : ∀ x ∈ newer, x.1.isChallenge = false
  expected : m.authResponse = q.2.authResponse

/-- Without a challenge nothing is expected of the server. -/
theorem Conversed.last {m : MSCHAPv2} {as : List (Packet × MSCHAPv2)}
    (h : Conversed w user pass m as) :
    m.authResponse = [] ∨ ∃ newer older q, LastChallenge m as newer older q := by
  induction h with
  | start => exact .inl rfl
  | @answer m m' as rand req resp h hreq ih =>
      cases buildEAPResponse_answers hreq with
      | challenge hchal _ _ => exact .inr ⟨[], as, (req, m'), rfl, hchal, nofun, rfl⟩
      | success hsucc hchal hne _ _ =>
          obtain ⟨newer, older, q, hq⟩ := ih.resolve_left hne
          refine .inr ⟨_ :: newer, older, q, by rw [hq.split]; rfl, hq.challenge, ?_, hq.expected⟩
          exact List.forall_mem_cons.mpr ⟨hchal, hq.last⟩
      | other hchal _ =>
          rcases ih with hempty | ⟨newer, older, q, hq⟩
          · exact .inl hempty
          · refine .inr ⟨_ :: newer, older, q, by rw [hq.split]; rfl, hq.challenge, ?_, hq.expected⟩
            exact List.forall_mem_cons.mpr ⟨hchal, hq.last⟩

/-- Where a Success stands, the challenge before it is proved. -/
theorem Conversed.proves {m : MSCHAPv2} {newer older : List (Packet × MSCHAPv2)}
    {x : Packet × MSCHAPv2} (h : Conversed w user pass m (newer ++ x :: older))
    (hx : x.1.isSuccess = true) :
    ∃ mid q first, older = mid ++ q :: first ∧ q.1.isChallenge = true ∧
      (∀ y ∈ mid, y.1.isChallenge = false) ∧ x.1.isChallenge = false ∧
      ∃ msg, messageBody x.1.data = .ok msg ∧ q.2.authResponse ≠ [] ∧ q.2.authResponse <+: msg := by
  obtain ⟨m₀, h₀, hans⟩ := h.older
  generalize x.2 = m' at hans
  cases hans with
  | challenge _ hsucc _ => rw [hsucc] at hx; cases hx
  | other _ hsucc => rw [hsucc] at hx; cases hx
  | success _ hchal hne hmsg hstart =>
      obtain ⟨mid, first, q, hq⟩ := h₀.last.resolve_left hne
      rw [hq.expected] at hne hstart
      exact ⟨mid, q, first, hq.split, hq.challenge, hq.last, hchal, _, hmsg, hne, hstart⟩

/-- The flag tells that a Success was accepted. -/
theorem Conversed.exists_success {m : MSCHAPv2} {as : List (Packet × MSCHAPv2)}
    (h : Conversed w user pass m as) (hm : m.authChecked = true) :
    ∃ newer x older, as = newer ++ x :: older ∧ x.1.isSuccess = true := by
  induction h with
  | start => cases hm
  | @answer m m' as rand req resp h hreq ih =>
      have hprev (hm' : m.authChecked = true) :
          ∃ newer x older, (req, m') :: as = newer ++ x :: older ∧ x.1.isSuccess = true := by
        obtain ⟨newer, x, older, rfl, hx⟩ := ih hm'
        exact ⟨(req, m') :: newer, x, older, rfl, hx⟩
      cases buildEAPResponse_answers hreq with
      | challenge _ _ hsame => exact hprev (hsame ▸ hm)
      | success hsucc _ _ _ _ => exact ⟨[], _, as, rfl, hsucc⟩
      | other _ _ => exact hprev hm

/-- The inputs of the key are those of a challenge that the server has proved: no other
challenge came after it, and a Success after it starts with the response that this
challenge has made us expect. -/
def Proved (m : MSCHAPv2) (as : List (Packet × MSCHAPv2)) : Prop :=
  ∃ newer q older, as = newer ++ q :: older ∧ q.1.isChallenge = true ∧
    (∀ x ∈ newer, x.1.isChallenge = false) ∧ m.mskInputs = q.2.mskInputs ∧
    ∃ x ∈ newer, x.1.isSuccess = true ∧
      ∃ msg, messageBody x.1.data = .ok msg ∧ q.2.authResponse ≠ [] ∧ q.2.authResponse <+: msg

/-- There is a Success, and no challenge after the last one.  The requests are listed
newest first. -/
def SuccessLast (reqs : List Packet) : Prop :=
  ∃ newer x older, reqs = newer ++ x :: older ∧ x.isSuccess = true ∧
    ∀ y ∈ newer, y.isChallenge = false

/-- Not so if the last request is a challenge. -/
theorem not_successLast {p : Packet} {reqs : List Packet} (hchal : p.isChallenge = true)
    (hsucc : p.isSuccess = false) : ¬ SuccessLast (p :: reqs) := by
  rintro ⟨newer, x, older, hsplit, hx, hlast⟩
  cases newer with
  | nil =>
      cases hsplit
      rw [hsucc] at hx
      cases hx
  | cons y newer =>
      cases hsplit
      rw [hlast p List.mem_cons_self] at hchal
      cases hchal

theorem Conversed.proved_iff {m : MSCHAPv2} {as : List (Packet × MSCHAPv2)}
    (h : Conversed w user pass m as) : Proved m as ↔ SuccessLast (as.map Prod.fst) := by
  constructor
  · rintro ⟨newer, q, older, rfl, -, hlast, -, x, hx, hsucc, -⟩
    obtain ⟨n₁, n₂, rfl⟩ := List.append_of_mem hx
    refine ⟨n₁.map Prod.fst, x.1, (n₂ ++ q :: older).map Prod.fst, by simp, hsucc, ?_⟩
    intro y hy
    obtain ⟨z, hz, rfl⟩ := List.mem_map.mp hy
    exact hlast z (List.mem_append_left _ hz)
  · rintro ⟨newer', x', older', hsplit, hsucc, hlast⟩
    obtain ⟨newer, rest, rfl, rfl, hrest⟩ := List.map_eq_append_iff.mp hsplit
    obtain ⟨x, older, rfl, rfl, rfl⟩ := List.map_eq_cons_iff.mp hrest
    obtain ⟨mid, q, first, rfl, hq, hmid, hx, msg, hmsg, hne, hstart⟩ := h.proves hsucc
    have hnone : ∀ y ∈ newer ++ x :: mid, y.1.isChallenge = false := by
      intro y hy
      rcases List.mem_append.mp hy with hy | hy
      · exact hlast _ (List.mem_map_of_mem hy)
      rcases List.mem_cons.mp hy with rfl | hy
      · exact hx
      · exact hmid y hy
    have hsplit' : newer ++ x :: (mid ++ q :: first) = (newer ++ x :: mid) ++ q :: first := by simp
    refine ⟨newer ++ x :: mid, q, first, hsplit', hq, hnone, ?_, x, by simp, hsucc, msg, hmsg, hne,
      hstart⟩
    rw [hsplit'] at h
    exact h.inputs_eq hnone

end

end GoIpsec.Session
