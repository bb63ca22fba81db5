import GoIpsec.Session.Completion

/-!
# Perfect forward secrecy of a rekey

A responder says twice whether a Child SA is keyed by a fresh exchange: by the Diffie-Hellman
transform of the proposal it selects, and by the key exchange payload it returns.
`completeChildRekey` follows the payload.  It looks at the transform only where we offered
an exchange and no payload came, so a payload without the transform, a payload beside the
transform of another group, and a transform nobody offered all pass.
-/

set_option linter.dupNamespace false

namespace GoIpsec.Session

open Golang Ikemsg Ikesa

/-- The answer exchanges the groups it selects, and no other. -/
def ExchangesSelected (prop : Proposal) (ke : Option KEPayload) : Prop :=
  (prop.byType transformDH).map Transform.id = ke.toList.map KEPayload.group

instance (prop : Proposal) (ke : Option KEPayload) : Decidable (ExchangesSelected prop ke) :=
  inferInstanceAs (Decidable (_ = _))

section

variable (c : Crypto) (ike : IKESA) (ctx : ChildRekeyCtx) (prop : Proposal) (suite : EspSuite)
  (nr : Bytes) (ke : Option KEPayload) (keys : ChildKeys)

/-- No group is selected, none is exchanged, and the keys come from the nonces alone. -/
structure KeyedPlain : Prop where
  noGroup : prop.byType transformDH = []
  noKE : ke = none
  derived : ike.deriveChildKeys c [] ctx.ni nr suite.encrKeyLen suite.integKeyLen = .ok keys

/-- The group we offered is selected and exchanged, and the keys fold in its secret. -/
structure KeyedPFS (dh : DH) (kep : KEPayload) (shared : Bytes) : Prop where
  offered : ctx.dh = some dh
  selected : (prop.byType transformDH).map Transform.id = [dh.group]
  answered : ke = some kep
  group : kep.group = dh.group
  secret : dh.shared c kep.data = .ok shared
  derived : ike.deriveChildKeys c shared ctx.ni nr suite.encrKeyLen suite.integKeyLen = .ok keys

/-- The keys are those of what was negotiated. -/
def KeyedAsNegotiated : Prop :=
  KeyedPlain c ike ctx prop suite nr ke keys ∨
    ∃ dh kep shared, KeyedPFS c ike ctx prop suite nr ke keys dh kep shared

end

/-- A Child SA that the completion installs is keyed as negotiated.  Where none is
installed, an error says so. -/
structure PfsAgrees (c : Crypto) (env : Env) (inner : Payloads) (p : PendingExchange)
    (ctx : ChildRekeyCtx) (d : Drive) : Prop where
  keyed : Installed d (completion c env inner p ctx d).2 →
    ∃ prop suite nr ke keys u, childRekeyResponse d.s.enabledESPSuites inner = .ok (prop, suite, nr, ke) ∧
      updates (completion c env inner p ctx d).2.log = u :: updates d.log ∧
      u.outEncr = keys.encrIR ∧ u.outInteg = keys.integIR ∧
      u.inEncr = keys.encrRI ∧ u.inInteg = keys.integRI ∧
      KeyedAsNegotiated c d.s.ikeSA ctx prop suite nr ke keys
  refused : ¬Installed d (completion c env inner p ctx d).2 →
    (completion c env inner p ctx d).1.isOk = false

section

variable {c : Crypto} {env : Env} {inner : Payloads} {p : PendingExchange} {ctx : ChildRekeyCtx}
  {d : Drive} {ike : IKESA} {prop : Proposal} {suite : EspSuite} {nr : Bytes}
  {ke : Option KEPayload} {keys : ChildKeys}

theorem KeyedAsNegotiated.exchangesSelected
    (h : KeyedAsNegotiated c ike ctx prop suite nr ke keys) : ExchangesSelected prop ke := by
  rcases h with h | ⟨dh, kep, shared, h⟩
  · rw [ExchangesSelected, h.noGroup, h.noKE]
    rfl
  · rw [ExchangesSelected, h.selected, h.answered, ← h.group]
    rfl

theorem childRekeyKeys_none : childRekeyKeys c ike ctx prop suite nr none =
    if ctx.dh.isSome ∧ selectedDHGroup prop ≠ 0 then
      fail "session: Child SA rekey response selected a DH group but omitted the KE payload"
    else ike.deriveChildKeys c [] ctx.ni nr suite.encrKeyLen suite.integKeyLen := by
  unfold childRekeyKeys
  cases ctx.dh with
  | none => rfl
  | some dh => rfl

/-- Keys derived from an answer that exchanges what it selects are keyed as negotiated. -/
theorem keyedAsNegotiated_of_exchangesSelected (h : ExchangesSelected prop ke)
    (hkeys : childRekeyKeys c ike ctx prop suite nr ke = .ok keys) :
    KeyedAsNegotiated c ike ctx prop suite nr ke keys := by
  cases ke with
  | none =>
      have hnone : prop.byType transformDH = [] := List.map_eq_nil_iff.mp h
      rw [childRekeyKeys_none, if_neg (by simp [selectedDHGroup, hnone])] at hkeys
      exact .inl ⟨hnone, rfl, hkeys⟩
  | some kep =>
      unfold childRekeyKeys at hkeys
      cases hdh : ctx.dh with
      | none =>
          rw [hdh] at hkeys
          cases hkeys
      | some dh =>
          rw [hdh] at hkeys
          by_cases hgroup : kep.group = dh.group
          · simp only [hgroup, ne_eq, not_true, if_false, bind_eq_ok, wrapErr_eq_ok] at hkeys
            obtain ⟨shared, hshared, hderive⟩ := hkeys
            exact .inr ⟨dh, kep, shared, hdh, h.trans (congrArg (fun g => [g]) hgroup), rfl, hgroup,
              hshared, hderive⟩
          · simp only [ne_eq, hgroup, not_false_eq_true, if_true] at hkeys
            cases hkeys

/-- The completion keys a Child SA as negotiated just if the answer cannot be used, or
exchanges what it selects. -/
theorem pfs_agrees_iff (c : Crypto) (env : Env) (inner : Payloads) (p : PendingExchange)
    (ctx : ChildRekeyCtx) (d : Drive) (hdp : d.s.dataPlane = true) :
    PfsAgrees c env inner p ctx d ↔
      (usableAnswer c d.s.enabledESPSuites ctx inner = true →
        ∀ prop suite nr ke,
          childRekeyResponse d.s.enabledESPSuites inner = .ok (prop, suite, nr, ke) →
          ExchangesSelected prop ke) := by
  rw [usableAnswer_iff]
  cases hres : childRekeyResult c d.s.enabledESPSuites d.s.ikeSA ctx inner with
  | error e =>
      have hrun : completion c env inner p ctx d = _ := completion_of_unusable hres
      refine ⟨fun _ ⟨_, hok⟩ => (nomatch hok), fun _ => ⟨fun hinst => ?_, fun _ => ?_⟩⟩
      · rw [hrun] at hinst
        exact (hinst rfl).elim
      · rw [hrun]
        rfl
  | ok res =>
      obtain ⟨respSPI, suite, keys⟩ := res
      have hrun : completion c env inner p ctx d = _ := completion_of_usable hdp hres
      have hlog : updates (afterInstall c env ctx (installedFor env p ctx d respSPI suite keys)).2.log = _ :=
        (afterInstall_outcome ctx).2.1
      simp only [childRekeyResult, bind_eq_ok, pure_eq_ok, Except.ok.injEq, Prod.mk.injEq] at hres
      obtain ⟨⟨prop, suite', nr, ke⟩, hresp, spi, -, keys', hkeys, rfl, rfl, rfl⟩ := hres
      rw [← hrun] at hlog
      have hinst : Installed d (completion c env inner p ctx d).2 := fun heq =>
        List.cons_ne_self _ _ (hlog.symm.trans heq)
      refine ⟨fun h _ prop₁ suite₁ nr₁ ke₁ hresp₁ => ?_, fun h => ⟨fun _ => ?_, fun hno => (hno hinst).elim⟩⟩
      · obtain ⟨prop₂, suite₂, nr₂, ke₂, keys₂, u, hresp₂, -, -, -, -, -, hkeyed⟩ := h.keyed hinst
        cases hresp₁.symm.trans hresp₂
        exact hkeyed.exchangesSelected
      · exact ⟨prop, suite', nr, ke, keys', _, hresp, hlog, rfl, rfl, rfl, rfl,
          keyedAsNegotiated_of_exchangesSelected (h ⟨_, rfl⟩ prop suite' nr ke hresp) hkeys⟩

end

/-! ## A key exchange without its transform -/

/-- An exchange of ours that offers group 31. -/
def samplePfsCtx : ChildRekeyCtx :=
  { sampleRekeyCtx with
    dh := some { priv := .x25519 (List.replicate 32 1),
                 pub := Crypto.sample.x25519Public (List.replicate 32 1) } }

def samplePfsRekey : PendingExchange := { sampleRekey with kind := .childRekey samplePfsCtx }

/-- An answer that returns a key exchange of group 31, under a proposal for these groups. -/
def samplePfsAnswer (groups : List UInt16) : Payloads :=
  [.sa { proposals :=
      espSuites.take 1 |>.map fun s => buildProposalForSuite 1 s [0, 0, 0, 0x55] groups },
   .nonce { data := List.replicate 32 2 },
   .ke { group := dhGroup31, data := Crypto.sample.x25519Public (List.replicate 32 2) }]

theorem pfs_agrees_iff_sample :
    usableAnswer Crypto.sample sampleRekeying.s.enabledESPSuites samplePfsCtx
        (samplePfsAnswer [dhGroup31]) = true ∧
      PfsAgrees Crypto.sample (sampleEnv 2) (samplePfsAnswer [dhGroup31]) samplePfsRekey samplePfsCtx
        sampleRekeying := by
  refine ⟨by decide +kernel, (pfs_agrees_iff .sample (sampleEnv 2) (samplePfsAnswer [dhGroup31])
    samplePfsRekey samplePfsCtx sampleRekeying rfl).mpr fun _ prop suite nr ke hresp => ?_⟩
  obtain ⟨acc, saP, rest, hacc, hsa, hprops, -, -, -, -, rfl⟩ := childRekeyResponse_eq_ok hresp
  cases hacc
  cases hsa
  cases hprops
  rfl

/-- The proposal selects no group and a key exchange comes all the same: the Child SA is
installed, with keys that fold in a secret that was not negotiated. -/
theorem pfs_without_transform :
    Installed sampleRekeying (completion Crypto.sample (sampleEnv 2) (samplePfsAnswer [])
        samplePfsRekey samplePfsCtx sampleRekeying).2 ∧
      ¬ PfsAgrees Crypto.sample (sampleEnv 2) (samplePfsAnswer []) samplePfsRekey samplePfsCtx
        sampleRekeying := by
  have hinstalled : updates (completion Crypto.sample (sampleEnv 2) (samplePfsAnswer [])
      samplePfsRekey samplePfsCtx sampleRekeying).2.log ≠ updates sampleRekeying.log := by
    decide +kernel
  refine ⟨hinstalled, fun h => ?_⟩
  obtain ⟨prop, suite, nr, ke, keys, u, hresp, -, -, -, -, -, hkeyed⟩ := h.keyed hinstalled
  obtain ⟨acc, saP, rest, hacc, hsa, hprops, -, -, -, -, rfl⟩ := childRekeyResponse_eq_ok hresp
  cases hacc
  cases hsa
  cases hprops
  exact absurd hkeyed.exchangesSelected (by decide)

end GoIpsec.Session
