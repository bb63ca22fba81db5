import GoIpsec.Ipsec.DataPlane
import GoIpsec.Session.AuthSound
import GoIpsec.Session.Replacement
import GoIpsec.Session.Window

/-!
# Control plane and data plane in lockstep

A client as a whole: the control loop of its session takes turns and installs Child SAs
in the data plane, grace timers fire and run their callbacks, and a reconnect puts a new
session in the place of a dead one.

The registry of the data plane is a registry with deferred removals, whose deferred
removals are the timers that are armed or have started.  It follows the session because
every update names the live Child SA as the one it replaces, whichever end started the
exchange.
-/

set_option linter.dupNamespace false

namespace GoIpsec.Ipsec

open Golang Session

/-! ## The updates of a session -/

/-- The update puts `new` in the place of the live Child SA. -/
structure Supersedes (old : Option ChildSA) (u : ChildSAUpdate) (new : Option ChildSA) : Prop where
  old : ∃ child, old = some child ∧ child.initiatorSPI = u.oldInSPI
  new : ∃ child, new = some child ∧ child.initiatorSPI = u.newInSPI ∧ child.responderSPI = u.newOutSPI
  keyed : Keyed u.suite u.outEncr u.outInteg u.inEncr u.inInteg

section

variable {c : Crypto} {r : Rules} {m m' : Machine}

theorem childRekeyResult_keyed {enabled : List EspSuite} {ike : Ikesa.IKESA} {ctx : ChildRekeyCtx}
    {inner : Ikemsg.Payloads} {respSPI : UInt32} {suite : EspSuite} {keys : Ikesa.ChildKeys}
    (henabled : ∀ s ∈ enabled, s ∈ espSuites)
    (h : childRekeyResult c enabled ike ctx inner = .ok (respSPI, suite, keys)) :
    Keyed suite.id keys.encrIR keys.integIR keys.encrRI keys.integRI := by
  simp only [childRekeyResult, bind_eq_ok, pure_eq_ok, Except.ok.injEq, Prod.mk.injEq] at h
  obtain ⟨⟨prop, suite', nr, ke⟩, hresp, spi, -, keys', hkeys, rfl, rfl, rfl⟩ := h
  obtain ⟨-, -, -, -, -, -, hselect, -⟩ := childRekeyResponse_eq_ok hresp
  have hsuite : suite' ∈ espSuites := henabled _ (mem_of_selectedSuite hselect).1
  unfold childRekeyKeys at hkeys
  split at hkeys
  · dsimp only at hkeys
    split at hkeys
    · cases hkeys
    · simp only [bind_eq_ok] at hkeys
      obtain ⟨shared, -, hkeys⟩ := hkeys
      exact keyed_of_derived hsuite hkeys
  · cases hkeys
  · split at hkeys
    · cases hkeys
    · exact keyed_of_derived hsuite hkeys

theorem keyed_of_acceptsChild {sa : Ikesa.IKESA} {inner resp : Ikemsg.Payloads} {u : ChildSAUpdate}
    (h : AcceptsChild c m sa inner resp u) :
    Keyed u.suite u.outEncr u.outInteg u.inEncr u.inInteg := by
  cases h with
  | intro _ _ hselect _ _ _ _ _ hkeys =>
      have hsuite := mem_of_mem_enabledSuites (selectProposal_eq_some hselect).1
      exact (keyed_of_derived hsuite hkeys).symm

/-- An outstanding Child SA exchange is to replace the live Child SA. -/
def OnTarget (m : Machine) : Prop :=
  ∀ ctx, m.Replacing ctx → ∃ child, m.child = some child ∧ child.initiatorSPI = ctx.oldInSPI

theorem OnTarget.of_idle (h : ∀ ctx, ¬ m.Replacing ctx) : OnTarget m :=
  fun ctx hctx => (h ctx hctx).elim

theorem OnTarget.congr (h : OnTarget m) (hp : m'.pending = m.pending) (hc : m'.child = m.child) :
    OnTarget m' := by
  intro ctx hctx
  unfold Machine.Replacing at hctx
  rw [hp] at hctx
  rw [hc]
  exact h ctx hctx

theorem OnTarget.move (h : OnTarget m) (hmove : Move c r m m') : OnTarget m' := by
  cases hmove with
  | receive | finish | takeUp | handled | unanswered | dead | notice | resent | expire | answer
  | childDeleted | lower => exact h.congr rfl rfl
  | drop | abandon | refused | complete | completeIKE | acceptIKE =>
      exact .of_idle (Machine.not_replacing_none rfl)
  | accept _ _ _ hpending => exact .of_idle (Machine.not_replacing_of_rekeying hpending)
  | request _ _ _ hasks =>
      intro ctx hctx
      cases hctx.unique rfl
      cases hasks with
      | childRekey _ _ _ _ _ _ hold _ => exact hold

/-- A move leaves the live Child SA alone, or installs another in its place. -/
theorem updates_of_move (ht : OnTarget m) (hmove : Move c r m m') :
    (m'.child = m.child ∧ updates m'.log = updates m.log) ∨
      ∃ u, Supersedes m.child u m'.child ∧ updates m'.log = u :: updates m.log := by
  cases hmove with
  | receive | finish | takeUp | handled | unanswered | dead | notice | resent | expire | answer
  | childDeleted | lower | drop | abandon | refused | completeIKE | acceptIKE => exact .inl ⟨rfl, rfl⟩
  | @request kind => exact .inl ⟨rfl, by cases kind <;> rfl⟩
  | complete hreply hresult =>
      refine .inr ⟨_, ⟨ht _ ⟨_, hreply.pending⟩, ⟨_, rfl, rfl, rfl⟩, ?_⟩, rfl⟩
      exact childRekeyResult_keyed (fun s hs => mem_of_mem_enabledSuites hs) hresult
  | accept _ _ _ _ _ haccept =>
      refine .inr ⟨_, ⟨?_, ⟨_, rfl, rfl, rfl⟩, keyed_of_acceptsChild haccept⟩, rfl⟩
      cases haccept with
      | intro hold => exact hold

end

/-! ## The registry of a client -/

namespace Client

/-- The removals of `r` are those of the timers that are armed or have started. -/
structure Represents (cl : Client) (r : Registry UInt32 Ptr) : Prop where
  entries : r.entries = cl.inbound
  live : r.live = cl.tun
  due : ∀ spi p, (spi, p) ∈ r.due ↔
    ∃ t, (t ∈ cl.armed ∨ t ∈ cl.started) ∧ t.spi = spi ∧ t.want = some p
  allocated : ∀ x ∈ r.due, x.2 < cl.heap.length
  placed : ∀ spi p, cl.inbound spi = some p → ∃ sa, cl.heap[p]? = some sa ∧ sa.inSPI = spi

/-- The data plane has the Child SA of the session. -/
def InStep (cl : Client) (child : Option ChildSA) : Prop :=
  ∃ r ch sa, cl.Represents r ∧ child = some ch ∧ r.home = ch.initiatorSPI ∧ ch.initiatorSPI ≠ 0 ∧
    cl.heap[cl.tun]? = some sa ∧ sa.outSPI = ch.responderSPI

variable {cl : Client} {r : Registry UInt32 Ptr} {w : UInt32} {child : Option ChildSA}

theorem Represents.entries_ne_new (h : cl.Represents r) (spi : UInt32) :
    r.entries spi ≠ some cl.heap.length := by
  intro hspi
  rw [h.entries] at hspi
  obtain ⟨sa, hsa, -⟩ := h.placed spi _ hspi
  rw [List.getElem?_eq_none (le_refl _)] at hsa
  cases hsa

theorem Represents.due_ne_new (h : cl.Represents r) (spi : UInt32) :
    (spi, cl.heap.length) ∉ r.due :=
  fun hdue => Nat.lt_irrefl _ (h.allocated _ hdue)

/-- What is allocated next keeps the places of the SAs before it. -/
theorem Represents.placed_append (h : cl.Represents r) {spi : UInt32} {p : Ptr} (sa : Esp.SA)
    (hp : cl.inbound spi = some p) : ∃ sa', (cl.heap ++ [sa])[p]? = some sa' ∧ sa'.inSPI = spi := by
  obtain ⟨sa', hsa', hspi⟩ := h.placed spi p hp
  refine ⟨sa', ?_, hspi⟩
  rw [List.getElem?_append_left (List.getElem?_eq_some_iff.mp hsa').1]
  exact hsa'

theorem Represents.inbound_home (h : cl.Represents r) : cl.inbound r.home = some cl.tun := by
  rw [← h.entries, ← h.live]
  exact r.registered

/-- The SA of an update is put in place, and a timer is armed for the superseded one
unless its SPI is taken over. -/
theorem Represents.install {u : ChildSAUpdate} {sa : Esp.SA} (h : cl.Represents r)
    (hhome : r.home = u.oldInSPI) (hold : u.oldInSPI ≠ 0)
    (hsa : Esp.newSA u.suite u.newOutSPI u.newInSPI u.outEncr u.outInteg u.inEncr u.inInteg w = .ok sa)
    (hspi : sa.inSPI = u.newInSPI) :
    (cl.installChildSA w u).Represents
      (r.install u.newInSPI cl.heap.length h.entries_ne_new h.due_ne_new) := by
  have hentries : Function.update r.entries u.newInSPI (some cl.heap.length) =
      Function.update cl.inbound u.newInSPI (some cl.heap.length) := by rw [h.entries]
  have hplaced (spi : UInt32) (p : Ptr)
      (hp : Function.update cl.inbound u.newInSPI (some cl.heap.length) spi = some p) :
      ∃ sa', (cl.heap ++ [sa])[p]? = some sa' ∧ sa'.inSPI = spi := by
    by_cases hk : spi = u.newInSPI
    · subst hk
      rw [Function.update_self] at hp
      cases hp
      exact ⟨sa, by simp, hspi⟩
    · rw [Function.update_of_ne hk] at hp
      exact h.placed_append sa hp
  have hallocated (x : UInt32 × Ptr) (hx : x ∈ r.deferred u.newInSPI) :
      x.2 < (cl.heap ++ [sa]).length := by
    rw [List.length_append]
    refine Nat.lt_add_right _ ?_
    rcases Registry.mem_deferred.mp hx with hx | ⟨-, rfl⟩
    · exact h.allocated x hx
    · obtain ⟨sa', hsa', -⟩ := h.placed _ _ h.inbound_home
      rw [h.live]
      exact (List.getElem?_eq_some_iff.mp hsa').1
  simp only [installChildSA, hsa]
  by_cases hsame : u.oldInSPI = u.newInSPI
  · rw [if_neg fun hne => hne.2 hsame]
    refine ⟨hentries, rfl, fun spi p => ?_, hallocated, hplaced⟩
    rw [← h.due]
    refine Registry.mem_deferred.trans ⟨fun hx => ?_, .inl⟩
    rcases hx with hx | ⟨hne, -⟩
    · exact hx
    · exact (hne (hhome.trans hsame)).elim
  · rw [if_pos ⟨hold, hsame⟩]
    refine ⟨hentries, rfl, fun spi p => ?_, hallocated, hplaced⟩
    have hwant : cl.inbound u.oldInSPI = some cl.tun := hhome ▸ h.inbound_home
    refine Registry.mem_deferred.trans ⟨?_, ?_⟩
    · rintro (hx | ⟨-, heq⟩)
      · obtain ⟨t, ht, hrest⟩ := (h.due spi p).mp hx
        exact ⟨t, ht.imp (List.mem_cons_of_mem _) id, hrest⟩
      · obtain ⟨rfl, rfl⟩ := Prod.mk.inj heq
        exact ⟨_, .inl List.mem_cons_self, hhome.symm, by rw [h.live]; exact hwant⟩
    · rintro ⟨t, ht | ht, rfl, hp⟩
      · rcases List.mem_cons.mp ht with rfl | ht
        · refine .inr ⟨fun hk => hsame (hhome.symm.trans hk), ?_⟩
          rw [hhome, h.live]
          exact congrArg (Prod.mk _) (Option.some.inj (hp.symm.trans hwant))
        · exact .inl ((h.due _ _).mpr ⟨t, .inl ht, rfl, hp⟩)
      · exact .inl ((h.due _ _).mpr ⟨t, .inr ht, rfl, hp⟩)

theorem InStep.install {u : ChildSAUpdate} {new : Option ChildSA} (h : cl.InStep child)
    (hu : Supersedes child u new) (hspi : u.newInSPI ≠ 0) :
    (cl.installChildSA w u).InStep new := by
  obtain ⟨r, ch, sa₀, hr, rfl, hhome, hnz, -, -⟩ := h
  obtain ⟨child', hchild', hold⟩ := hu.old
  cases hchild'
  obtain ⟨new', rfl, hin, hout⟩ := hu.new
  obtain ⟨sa, hsa, hsaout, hsain⟩ := hu.keyed.newSA u.newOutSPI u.newInSPI w
  refine ⟨_, new', sa, hr.install (hhome.trans hold) (hold ▸ hnz) hsa hsain, rfl, hin.symm,
    hin ▸ hspi, ?_, hsaout.trans hout.symm⟩
  simp only [installChildSA, hsa]
  split <;> simp [scheduleInboundRemoval]

/-- Whatever leaves the registry, the tunnel and the timers alone. -/
theorem InStep.congr {cl' : Client} (h : cl.InStep child) (hheap : cl'.heap = cl.heap)
    (hinbound : cl'.inbound = cl.inbound) (htun : cl'.tun = cl.tun)
    (htimers : ∀ t, t ∈ cl'.armed ∨ t ∈ cl'.started ↔ t ∈ cl.armed ∨ t ∈ cl.started) :
    cl'.InStep child := by
  obtain ⟨r, ch, sa, hr, hch, hhome, hnz, hsa, hout⟩ := h
  refine ⟨r, ch, sa, ⟨?_, ?_, fun spi p => ?_, ?_, ?_⟩, hch, hhome, hnz, ?_, hout⟩
  · rw [hinbound, hr.entries]
  · rw [htun, hr.live]
  · simp only [htimers]
    exact hr.due spi p
  · rw [hheap]
    exact hr.allocated
  · rw [hinbound, hheap]
    exact hr.placed
  · rw [hheap, htun]
    exact hsa

theorem InStep.fire {t : GraceTimer} (h : cl.InStep child) (ht : t ∈ cl.armed) :
    (cl.fire t).InStep child := by
  refine h.congr rfl rfl rfl fun t' => ?_
  by_cases heq : t' = t
  · subst heq
    exact ⟨fun _ => .inl ht, fun _ => .inr List.mem_cons_self⟩
  · simp [Client.fire, List.mem_erase_of_ne heq, heq]

/-- The callback of a timer removes the SA the timer was armed for, which is never the
live one. -/
theorem InStep.callback {t : GraceTimer} (h : cl.InStep child) (ht : t ∈ cl.started) :
    (cl.callback t).InStep child := by
  obtain ⟨r, ch, sa, hr, hch, hhome, hnz, hsa, hout⟩ := h
  have hleft (t' : GraceTimer) (hne : t' ≠ t) :
      t' ∈ cl.armed ∨ t' ∈ cl.started.erase t ↔ t' ∈ cl.armed ∨ t' ∈ cl.started := by
    rw [List.mem_erase_of_ne hne]
  have hless (t' : GraceTimer) (h' : t' ∈ cl.armed ∨ t' ∈ cl.started.erase t) :
      t' ∈ cl.armed ∨ t' ∈ cl.started := h'.imp id List.mem_of_mem_erase
  have hplaced (spi : UInt32) (p : Ptr) (hp : removeIf cl.inbound t.spi t.want spi = some p) :
      ∃ sa, cl.heap[p]? = some sa ∧ sa.inSPI = spi :=
    hr.placed spi p (removeIf_eq_some_iff.mp hp).1
  cases hwant : t.want with
  | none =>
      -- a timer without an SA removes nothing
      have hnone : removeIf cl.inbound t.spi none = cl.inbound := by
        funext spi
        refine Option.ext fun p => removeIf_eq_some_iff.trans ?_
        simp
      refine ⟨r, ch, sa, ⟨?_, hr.live, fun spi p => ?_, hr.allocated, hplaced⟩, hch, hhome, hnz, hsa,
        hout⟩
      · rw [hr.entries]
        exact (hwant ▸ hnone).symm
      · rw [hr.due]
        constructor
        · rintro ⟨t', ht', rfl, hp⟩
          refine ⟨t', (hleft t' ?_).mpr ht', rfl, hp⟩
          rintro rfl
          cases hwant.symm.trans hp
        · rintro ⟨t', ht', hrest⟩
          exact ⟨t', hless t' ht', hrest⟩
  | some p₀ =>
      let due : Set (UInt32 × Ptr) :=
        { x | ∃ t', (t' ∈ cl.armed ∨ t' ∈ cl.started.erase t) ∧ t'.spi = x.1 ∧ t'.want = some x.2 }
      have hrun : (t.spi, p₀) ∈ r.due := (hr.due _ _).mpr ⟨t, .inr ht, rfl, hwant⟩
      have hdue : due ⊆ r.due := by
        rintro ⟨spi, p⟩ ⟨t', ht', hrest⟩
        exact (hr.due spi p).mpr ⟨t', hless t' ht', hrest⟩
      have hrest (x : UInt32 × Ptr) (hx : x ∈ r.due) (hne : x ≠ (t.spi, p₀)) : x ∈ due := by
        obtain ⟨t', ht', hspi, hp⟩ := (hr.due x.1 x.2).mp hx
        refine ⟨t', (hleft t' ?_).mpr ht', hspi, hp⟩
        rintro rfl
        exact hne (Prod.ext hspi.symm (Option.some.inj (hp.symm.trans hwant)))
      refine ⟨r.remove t.spi p₀ due hrun hdue hrest, ch, sa,
        ⟨?_, hr.live, fun _ _ => Iff.rfl, fun x hx => hr.allocated x (hdue hx), hplaced⟩, hch, hhome, hnz,
        hsa, hout⟩
      show removeIf r.entries t.spi (some p₀) = removeIf cl.inbound t.spi t.want
      rw [hr.entries, hwant]

/-- An SA that is allocated and registered alone.  The timers that are left are for SAs
allocated before. -/
theorem inStep_single {heap : List Esp.SA} {ch : ChildSA} {sa : Esp.SA} (hin : sa.inSPI = ch.initiatorSPI)
    (hout : sa.outSPI = ch.responderSPI) (hnz : ch.initiatorSPI ≠ 0) (hheap : cl.heap = heap ++ [sa])
    (hinbound : cl.inbound = Function.update (fun _ => none) ch.initiatorSPI (some heap.length))
    (htun : cl.tun = heap.length)
    (htimers : ∀ t, t ∈ cl.armed ∨ t ∈ cl.started → ∀ p, t.want = some p → p < heap.length) :
    cl.InStep (some ch) := by
  let due : Set (UInt32 × Ptr) :=
    { x | ∃ t, (t ∈ cl.armed ∨ t ∈ cl.started) ∧ t.spi = x.1 ∧ t.want = some x.2 }
  have hdue (spi : UInt32) : (spi, heap.length) ∉ due := by
    rintro ⟨t, ht, -, hp⟩
    exact Nat.lt_irrefl _ (htimers t ht _ hp)
  have hsa : cl.heap[heap.length]? = some sa := by simp [hheap]
  refine ⟨.single ch.initiatorSPI heap.length due hdue, ch, sa, ⟨hinbound.symm, htun.symm, fun _ _ => Iff.rfl,
    ?_, fun spi p hp => ?_⟩, rfl, rfl, hnz, htun ▸ hsa, hout⟩
  · rintro ⟨spi, p⟩ ⟨t, ht, -, hp⟩
    rw [hheap, List.length_append]
    exact Nat.lt_add_right _ (htimers t ht p hp)
  · rw [hinbound] at hp
    by_cases hk : spi = ch.initiatorSPI
    · subst hk
      rw [Function.update_self] at hp
      cases hp
      exact ⟨sa, hsa, hin⟩
    · rw [Function.update_of_ne hk] at hp
      cases hp

end Client

/-! ## Steps of a client -/

/-- The keys of a Child SA have the lengths of its suite. -/
def ChildKeyed (child : ChildSA) : Prop :=
  Keyed child.suite child.keys.encrIR child.keys.integIR child.keys.encrRI child.keys.integRI

/-- A handshake ends with a Child SA whose keys fit. -/
theorem childKeyed_of_accepted {c : Crypto} {s : Handshake} {before : WireID} {secret : Bytes}
    {ps : Ikemsg.Payloads} {child : ChildSA} (h : Accepted c s before secret ps child) :
    ChildKeyed child := by
  obtain ⟨-, ike, auth, -, -, -, -, -, hselected⟩ := h
  obtain ⟨sa, prop, rest, suite, -, -, hsuite, -, -, -, -, hid, hkeys⟩ := hselected
  unfold ChildKeyed
  rw [hid]
  exact keyed_of_derived (mem_of_mem_enabledSuites hsuite) hkeys

theorem ChildKeyed.espSAFromChild {child : ChildSA} (h : ChildKeyed child) (w : UInt32) :
    ∃ sa, espSAFromChild w child = .ok sa ∧ sa.outSPI = child.responderSPI ∧
      sa.inSPI = child.initiatorSPI :=
  h.newSA child.responderSPI child.initiatorSPI w

/-- What happens in a step, with the Child SAs it installs or the SPI it starts with. -/
inductive Action where
  | turn (us : List ChildSAUpdate)
  | fire (t : GraceTimer)
  | callback (t : GraceTimer)
  | prune (t : GraceTimer)
  | reconnect (spi : UInt32)

/-- The inbound SPIs that are put to use in a step. -/
def Action.spis : Action → List UInt32
  | .turn us => us.map ChildSAUpdate.newInSPI
  | .reconnect spi => [spi]
  | _ => []

/-- Whether the control loop goes on after a turn. -/
def goesOn : Go Bool → Bool
  | .ok false => true
  | _ => false

inductive Step (c : Crypto) (w : UInt32) : Client → Action → Client → Prop
  /-- A turn of the control loop.  It may end the loop, and it may panic. -/
  | turn {cl : Client} {d : Drive} {res : Go Bool} {us : List ChildSAUpdate} (env : Env)
      (input : Input) (hstopped : cl.stopped = false)
      (hstep : driverStep c env input cl.session = (res, d))
      (hus : updates d.log = us ++ updates cl.session.log) :
      Step c w cl (.turn us)
        { us.foldr (Client.installChildSA w) cl with session := d, stopped := !goesOn res }
  | fire {cl : Client} {t : GraceTimer} (ht : t ∈ cl.armed) : Step c w cl (.fire t) (cl.fire t)
  | callback {cl : Client} {t : GraceTimer} (ht : t ∈ cl.started) :
      Step c w cl (.callback t) (cl.callback t)
  | prune {cl : Client} {t : GraceTimer} (ht : t ∈ cl.ending) : Step c w cl (.prune t) (cl.prune t)
  /-- A reconnect with a session that a handshake has established. -/
  | reconnect {cl cl' : Client} {d : Drive} {child : ChildSA} (hstart : Starts d)
      (hchild : d.s.child = some child) (hkeyed : ChildKeyed child)
      (hreconnect : cl.reconnect w d = .ok cl') :
      Step c w cl (.reconnect child.initiatorSPI) cl'

/-- The runs of a client, with their actions, newest first. -/
inductive Steps (c : Crypto) (w : UInt32) (cl₀ : Client) : List Action → Client → Prop
  | refl : Steps c w cl₀ [] cl₀
  | step {as : List Action} {a : Action} {cl cl' : Client} (h : Steps c w cl₀ as cl)
      (hstep : Step c w cl a cl') : Steps c w cl₀ (a :: as) cl'

/-- A client whose data plane has just been started, with the SPI it receives on. -/
def Begins (w : UInt32) (cl : Client) (spi : UInt32) : Prop :=
  ∃ d child, Starts d ∧ d.s.child = some child ∧ child.initiatorSPI = spi ∧
    Client.startDataPlane w d = .ok cl

/-! ## The lockstep -/

section

variable {c : Crypto} {w : UInt32} {cl cl' : Client}

/-- The data plane has the Child SA of the session, and an exchange of the session is to
replace it. -/
structure Sound (cl : Client) : Prop where
  dataPlane : cl.session.s.dataPlane = true
  onTarget : OnTarget (cl.session.view {})
  inStep : cl.InStep cl.session.s.child

theorem onTarget_of_fresh {m : Machine} (h : m.Fresh) : OnTarget m :=
  .of_idle (Machine.not_replacing_none h.pending)

/-- The installs of a turn keep the data plane in step with the session. -/
theorem Sound.turn {d : Drive} {res : Go Bool} {us : List ChildSAUpdate} {env : Env} {input : Input}
    (h : Sound cl) (hstep : driverStep c env input cl.session = (res, d))
    (hus : updates d.log = us ++ updates cl.session.log) (hspis : ∀ u ∈ us, u.newInSPI ≠ 0) :
    Sound { us.foldr (Client.installChildSA w) cl with session := d, stopped := !goesOn res } := by
  -- what holds along the moves of the turn, for the installs made so far
  let Inv (m : Machine) : Prop := m.dataPlane = true ∧ OnTarget m ∧
    ∃ vs, updates m.log = vs ++ updates cl.session.log ∧
      ((∀ u ∈ vs, u.newInSPI ≠ 0) → (vs.foldr (Client.installChildSA w) cl).InStep m.child)
  have hmove (m m' : Machine) (hm : Inv m) (hmv : Move c (anyTurn True) m m') : Inv m' := by
    obtain ⟨hdp, ht, vs, hvs, hin⟩ := hm
    refine ⟨hmv.dataPlane.trans hdp, ht.move hmv, ?_⟩
    rcases updates_of_move ht hmv with ⟨hchild, hlog⟩ | ⟨u, hu, hlog⟩
    · refine ⟨vs, hlog.trans hvs, fun hnz => ?_⟩
      rw [hchild]
      exact hin hnz
    · refine ⟨u :: vs, by rw [hlog, hvs]; rfl, fun hnz => ?_⟩
      exact (hin fun v hv => hnz v (List.mem_cons_of_mem _ hv)).install hu (hnz u List.mem_cons_self)
  have hsim : Sim c (anyTurn True) cl.session {} (driverStep c env input) fun _ _ h' => h' = {} :=
    driverStep_sim h.dataPlane (admitted_anyTurn fun _ => trivial)
  obtain ⟨h', hrun, -⟩ := hsim
  rw [hstep] at hrun
  have hstart : Inv (cl.session.view {}) := ⟨h.dataPlane, h.onTarget, [], rfl, fun _ => h.inStep⟩
  obtain ⟨hdp, ht, vs, hvs, hin⟩ : Inv (d.view h') :=
    Relation.ReflTransGen.rec (motive := fun m _ => Inv m) hstart
      (fun _ hmv hm => hmove _ _ hm hmv) hrun
  obtain rfl : vs = us := List.append_cancel_right (hvs.symm.trans hus)
  exact ⟨hdp, ht, (hin hspis).congr rfl rfl rfl fun _ => Iff.rfl⟩

theorem Sound.reconnect {d : Drive} {child : ChildSA} (h : Sound cl) (hstart : Starts d)
    (hchild : d.s.child = some child) (hkeyed : ChildKeyed child) (hnz : child.initiatorSPI ≠ 0)
    (hreconnect : cl.reconnect w d = .ok cl') : Sound cl' := by
  obtain ⟨sa, hsa, hout, hin⟩ := hkeyed.espSAFromChild w
  simp only [Client.reconnect, hchild, hsa] at hreconnect
  cases hreconnect
  refine ⟨hstart.fresh.dataPlane, onTarget_of_fresh hstart.fresh, ?_⟩
  obtain ⟨r, ch, sa', hr, -⟩ := h.inStep
  show Client.InStep _ d.s.child
  rw [hchild]
  refine Client.inStep_single hin hout hnz rfl rfl rfl fun t ht p hp => ?_
  have ht' : t ∈ cl.armed ∨ t ∈ cl.started := ht.imp (fun h => (List.mem_filter.mp h).1) id
  exact hr.allocated (t.spi, p) ((hr.due _ _).mpr ⟨t, ht', rfl, hp⟩)

theorem Begins.sound {spi : UInt32} (h : Begins w cl spi) (hspi : spi ≠ 0) : Sound cl := by
  obtain ⟨d, child, hstart, hchild, rfl, hcl⟩ := h
  simp only [Client.startDataPlane, hchild, bind_eq_ok, pure_eq_ok, Except.ok.injEq] at hcl
  obtain ⟨sa, hsa, rfl⟩ := hcl
  refine ⟨hstart.fresh.dataPlane, onTarget_of_fresh hstart.fresh, ?_⟩
  show Client.InStep _ d.s.child
  rw [hchild]
  have hspis : sa.inSPI = child.initiatorSPI ∧ sa.outSPI = child.responderSPI := by
    simp only [espSAFromChild, Esp.newSA, bind_eq_ok, pure_eq_ok, Except.ok.injEq] at hsa
    obtain ⟨k, -, rfl⟩ := hsa
    exact ⟨rfl, rfl⟩
  exact Client.inStep_single hspis.1 hspis.2 hspi (List.nil_append [sa]).symm rfl rfl
    fun t ht => by rcases ht with ht | ht <;> cases ht

theorem Sound.step {a : Action} (h : Sound cl) (hstep : Step c w cl a cl') (hspis : 0 ∉ a.spis) :
    Sound cl' := by
  cases hstep with
  | turn env input _ hstep hus =>
      refine h.turn hstep hus fun u hu hz => hspis ?_
      exact List.mem_map.mpr ⟨u, hu, hz⟩
  | fire ht => exact ⟨h.dataPlane, h.onTarget, h.inStep.fire ht⟩
  | callback ht => exact ⟨h.dataPlane, h.onTarget, h.inStep.callback ht⟩
  | prune ht => exact ⟨h.dataPlane, h.onTarget, h.inStep.congr rfl rfl rfl fun _ => Iff.rfl⟩
  | reconnect hstart hchild hkeyed hreconnect =>
      exact h.reconnect hstart hchild hkeyed (fun hz => hspis (by simp [Action.spis, hz])) hreconnect

theorem Sound.steps {as : List Action} (h : Sound cl) (hsteps : Steps c w cl as cl')
    (hspis : ∀ a ∈ as, 0 ∉ a.spis) : Sound cl' := by
  induction hsteps with
  | refl => exact h
  | step _ hstep ih =>
      exact (ih fun a ha => hspis a (List.mem_cons_of_mem _ ha)).step hstep
        (hspis _ List.mem_cons_self)

/-- The step takes the SA away from its SPI: its own timer removes it, the SPI is given
to another, or the client starts over. -/
def Action.Evicts (spi : UInt32) (p : Ptr) : Action → Prop
  | .turn us => ∃ u ∈ us, u.newInSPI = spi
  | .callback t => t.spi = spi ∧ t.want = some p
  | .reconnect _ => True
  | _ => False

theorem foldr_installChildSA_inbound {us : List ChildSAUpdate} {spi : UInt32}
    (h : ∀ u ∈ us, u.newInSPI ≠ spi) :
    (us.foldr (Client.installChildSA w) cl).inbound spi = cl.inbound spi := by
  induction us with
  | nil => rfl
  | cons u us ih =>
      have hrest := ih fun v hv => h v (List.mem_cons_of_mem _ hv)
      have hne : spi ≠ u.newInSPI := fun heq => h u List.mem_cons_self heq.symm
      rw [← hrest, List.foldr_cons]
      generalize us.foldr (Client.installChildSA w) cl = cl₁
      unfold Client.installChildSA
      split
      · rfl
      · dsimp only
        split <;> exact Function.update_of_ne hne _ _

/-- An SA stays where it is unless the step evicts it. -/
theorem Step.inbound {a : Action} {spi : UInt32} {p : Ptr} (h : Step c w cl a cl')
    (hp : cl.inbound spi = some p) (ha : ¬ a.Evicts spi p) : cl'.inbound spi = some p := by
  cases h with
  | turn env input _ _ _ =>
      refine (foldr_installChildSA_inbound fun u hu hspi => ha ⟨u, hu, hspi⟩).trans hp
  | fire => exact hp
  | callback => exact removeIf_eq_some_iff.mpr ⟨hp, ha⟩
  | prune => exact hp
  | reconnect => exact (ha trivial).elim

theorem Steps.inbound {as : List Action} {spi : UInt32} {p : Ptr} (h : Steps c w cl as cl')
    (hp : cl.inbound spi = some p) (has : ∀ a ∈ as, ¬ a.Evicts spi p) : cl'.inbound spi = some p := by
  induction h with
  | refl => exact hp
  | step _ hstep ih =>
      exact hstep.inbound (ih fun a ha => has a (List.mem_cons_of_mem _ ha)) (has _ List.mem_cons_self)

/-- The registry, the tunnel and the session agree after every step. -/
theorem registry_lockstep {cl₀ : Client} {spi₀ : UInt32} {as : List Action}
    (hbegins : Begins w cl₀ spi₀) (hsteps : Steps c w cl₀ as cl) (hspi₀ : spi₀ ≠ 0)
    (hspis : ∀ a ∈ as, 0 ∉ a.spis) :
    (∃ sa child, cl.heap[cl.tun]? = some sa ∧ cl.lookupInbound sa.inSPI = some cl.tun ∧
      cl.session.s.child = some child ∧ sa.inSPI = child.initiatorSPI ∧
      sa.outSPI = child.responderSPI) ∧
    (∀ spi p, cl.lookupInbound spi = some p → ∃ sa, cl.heap[p]? = some sa ∧ sa.inSPI = spi) ∧
    (∀ spi p, cl.lookupInbound spi = some p → p ≠ cl.tun →
      ∃ t, (t ∈ cl.armed ∨ t ∈ cl.started) ∧ t.spi = spi ∧ t.want = some p ∧
        (cl.removeInbound t.spi t.want).lookupInbound spi = none) ∧
    (∀ as' cl', Steps c w cl as' cl' → ∀ spi p, cl.lookupInbound spi = some p →
      (∀ a ∈ as', ¬ a.Evicts spi p) → cl'.lookupInbound spi = some p) ∧
    ∀ t cl', Step c w cl (.fire t) cl' ∨ Step c w cl (.callback t) cl' ∨ Step c w cl (.prune t) cl' →
      ∀ spi p, cl.lookupInbound spi = some p → cl'.lookupInbound spi ≠ some p →
        t.spi = spi ∧ t.want = some p := by
  have hsound := (hbegins.sound hspi₀).steps hsteps hspis
  obtain ⟨r, ch, sa, hr, hch, hhome, -, hsa, hout⟩ := hsound.inStep
  refine ⟨?_, hr.placed, ?_, ?_, ?_⟩
  · obtain ⟨sa', hsa', hin⟩ := hr.placed _ _ hr.inbound_home
    cases hsa.symm.trans hsa'
    refine ⟨sa, ch, hsa, ?_, hch, hin.trans hhome, hout⟩
    rw [hin]
    exact hr.inbound_home
  · intro spi p hp hne
    have hdue := r.covered spi p (hr.entries ▸ hp) (hr.live ▸ hne)
    obtain ⟨t, ht, rfl, hwant⟩ := (hr.due spi p).mp hdue
    refine ⟨t, ht, rfl, hwant, ?_⟩
    refine Option.eq_none_iff_forall_ne_some.mpr fun p' hp' => ?_
    obtain ⟨hp', hother⟩ := removeIf_eq_some_iff.mp hp'
    exact hother ⟨rfl, hwant.trans (hp.symm.trans hp')⟩
  · intro as' cl' hsteps' spi p hp has'
    exact hsteps'.inbound hp has'
  · intro t cl' hstep spi p hp hgone
    rcases hstep with hstep | hstep | hstep
    · exact (hgone (hstep.inbound hp id)).elim
    · exact Decidable.not_not.mp fun ha => hgone (hstep.inbound hp ha)
    · exact (hgone (hstep.inbound hp id)).elim

end

/-- A session whose Child SA has keys for its suite. -/
def sampleKeyed : Session :=
  { sampleSession .initiator with
    child := some { initiatorSPI := 0x11, responderSPI := 0x22, suite := .aesGCM256
                    keys := { encrIR := List.replicate 36 1, integIR := []
                              encrRI := List.replicate 36 2, integRI := [] } } }

def sampleKeyedStart : Drive := (driverStart (sampleEnv 1) { s := sampleKeyed }).2

/-- A client with the session has started. -/
theorem begins_sample : ∃ cl₀, Begins 64 cl₀ 0x11 ∧ cl₀.session = sampleKeyedStart ∧
    cl₀.stopped = false ∧ cl₀.heap.map (fun sa => (sa.inSPI, sa.outSPI)) = [(0x11, 0x22)] := by
  have hstart : Starts sampleKeyedStart :=
    ⟨sampleEnv 1, sampleKeyed, by constructor <;> rfl, rfl⟩
  obtain ⟨child, hchild, hkeyed, hspi, hout⟩ : ∃ child, sampleKeyedStart.s.child = some child ∧
      ChildKeyed child ∧ child.initiatorSPI = 0x11 ∧ child.responderSPI = 0x22 := by
    refine ⟨_, rfl, ⟨_, List.mem_cons_self, rfl, ?_⟩, rfl, rfl⟩
    decide
  obtain ⟨sa, hsa, hsaOut, hsaIn⟩ := hkeyed.espSAFromChild 64
  obtain ⟨cl₀, hcl₀, hsession, hgoing, hheap⟩ : ∃ cl₀,
      Client.startDataPlane 64 sampleKeyedStart = .ok cl₀ ∧ cl₀.session = sampleKeyedStart ∧
      cl₀.stopped = false ∧ cl₀.heap = [sa] := by
    simp only [Client.startDataPlane, hchild, hsa, ok_bind, pure_eq_ok]
    exact ⟨_, rfl, rfl, rfl, rfl⟩
  refine ⟨cl₀, ⟨sampleKeyedStart, child, hstart, hchild, hspi, hcl₀⟩, hsession, hgoing, ?_⟩
  rw [hheap, List.map_singleton, hsaIn, hsaOut, hspi, hout]

/-- The turn in which the peer asks for a Child SA. -/
def sampleRekeyTurn (env : Env) : Go Bool × Drive :=
  driverStep Crypto.sample env (.datagram (sampleRequest 0)) sampleKeyedStart

def sampleUpdates (env : Env) : List ChildSAUpdate := updates (sampleRekeyTurn env).2.log

/-- The client after the turn. -/
def sampleRekeyedClient (env : Env) (cl₀ : Client) : Client :=
  { (sampleUpdates env).foldr (Client.installChildSA 64) cl₀ with
    session := (sampleRekeyTurn env).2, stopped := !goesOn (sampleRekeyTurn env).1 }

theorem step_sample {cl₀ : Client} (hsession : cl₀.session = sampleKeyedStart)
    (hgoing : cl₀.stopped = false) (env : Env) :
    Step Crypto.sample 64 cl₀ (.turn (sampleUpdates env)) (sampleRekeyedClient env cl₀) := by
  have hturn : driverStep Crypto.sample env (.datagram (sampleRequest 0)) cl₀.session =
      ((sampleRekeyTurn env).1, (sampleRekeyTurn env).2) := by
    rw [hsession, Prod.mk.eta, sampleRekeyTurn]
  have hnone : updates sampleKeyedStart.log = [] := by decide +kernel
  have hus : updates (sampleRekeyTurn env).2.log = sampleUpdates env ++ updates cl₀.session.log := by
    rw [hsession, hnone, List.append_nil, sampleUpdates]
  exact Step.turn (w := 64) _ _ hgoing hturn hus

def sampleRekeyEnv : Env := { sampleEnv 2 with rand := fun n => some fun _ => UInt8.ofNat (n + 5) }

/-- The peer rekeys the Child SA of a client that has just started. -/
theorem registry_lockstep_sample :
    ∃ cl₀ cl, Begins 64 cl₀ 0x11 ∧
      Steps Crypto.sample 64 cl₀ [.turn (sampleUpdates sampleRekeyEnv)] cl ∧
      (sampleUpdates sampleRekeyEnv).map ChildSAUpdate.oldInSPI = [0x11] ∧
      ∃ sa child, cl.heap[cl.tun]? = some sa ∧ cl.lookupInbound sa.inSPI = some cl.tun ∧
        cl.session.s.child = some child ∧ sa.inSPI = child.initiatorSPI ∧
        sa.outSPI = child.responderSPI := by
  obtain ⟨cl₀, hbegins, hsession, hgoing, -⟩ := begins_sample
  have hsteps := Steps.refl.step (step_sample hsession hgoing sampleRekeyEnv)
  have hnz : 0 ∉ (sampleUpdates sampleRekeyEnv).map ChildSAUpdate.newInSPI := by decide +kernel
  refine ⟨_, _, hbegins, hsteps, by decide +kernel, ?_⟩
  refine (registry_lockstep hbegins hsteps (by decide) fun a ha => ?_).1
  rw [List.mem_singleton.mp ha]
  exact hnz

end GoIpsec.Ipsec
