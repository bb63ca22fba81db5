import GoIpsec.Ipsec.Generations

/-!
# Close leaks nothing

There is an assertion at each point of a call of `Close` (`CloseAt`).  What such a call has
found out stays so, since the steps of the others do not undo it (`Settles`).  A netstack is
closed, or is published, or is in the hands of the call that builds it (`NetSound`).
-/

set_option linter.dupNamespace false
set_option linter.ambiguousOpen false

namespace GoIpsec.Ipsec

/-! ## What is not undone -/

namespace Runtime

section

variable {ι κ : Type} {x y : Runtime ι κ}

/-- What no step undoes.  The manager and the session stay as they are once the supervisor
has exited and `Dial` has published the first manager. -/
structure Settles (x y : Runtime ι κ) : Prop where
  closed : x.closed = true → y.closed = true
  dialled : x.dial ≠ .launching → y.dial ≠ .launching
  exited : x.sup = .exited → y.sup = .exited
  mgr : x.sup = .exited → x.dial ≠ .launching → y.mgr = x.mgr
  mgrs : x.sup = .exited → x.dial ≠ .launching → ∀ m, Keeps (x.mgrs m) (y.mgrs m)
  session : x.sup = .exited → y.session = x.session
  stores : x.sup = .exited → y.stores = x.stores
  started : x.sup = .exited → x.Quiet → y.started = x.started
  net : x.closed = true → y.net = x.net
  netstacks : x.closedStacks ⊆ y.closedStacks
  sessions : x.closedSessions ⊆ y.closedSessions

theorem Keeps.refl (mgr : Manager) : Keeps mgr mgr := ⟨id, fun _ => id⟩

theorem Settles.refl (x : Runtime ι κ) : Settles x x where
  closed := id
  dialled := id
  exited := id
  mgr _ _ := rfl
  mgrs _ _ _ := .refl _
  session _ := rfl
  stores _ := rfl
  started _ _ := rfl
  net _ := rfl
  netstacks := List.Subset.refl _
  sessions := List.Subset.refl _

theorem keeps_setMgr {m : Nat} {mgr : Manager} (h : Keeps (x.mgrs m) mgr) (g : Nat) :
    Keeps (x.mgrs g) ((x.setMgr m mgr).mgrs g) := by
  rw [setMgr_mgrs]
  split
  · subst g
    exact h
  · exact .refl _

/-- What the workers, `Dial` and the supervisor leave to the calls of `Close` and
`netstack`. -/
structure Aside (x y : Runtime ι κ) : Prop where
  closed : y.closed = x.closed
  closers : y.closers = x.closers
  closeOnce : y.closeOnce = x.closeOnce
  nets : y.nets = x.nets
  netOnce : y.netOnce = x.netOnce
  net : y.net = x.net
  netstacks : y.netstacks = x.netstacks
  closedStacks : y.closedStacks = x.closedStacks
  sessions : x.closedSessions ⊆ y.closedSessions

theorem Aside.refl (x : Runtime ι κ) : Aside x x :=
  ⟨rfl, rfl, rfl, rfl, rfl, rfl, rfl, rfl, List.Subset.refl _⟩

/-- The supervisor and `Dial` are out of the way of `Close`. -/
structure Halted (x : Runtime ι κ) : Prop where
  closed : x.closed = true
  exited : x.sup = .exited
  dialled : x.dial ≠ .launching

/-- The netstack that is published is closed. -/
def NetClosed (x : Runtime ι κ) : Prop := ∀ n, x.net = some n → n ∈ x.closedStacks

/-- What `Close` has done when it returns. -/
structure Finished (x : Runtime ι κ) : Prop where
  halted : x.Halted
  quiet : x.Quiet
  net : x.NetClosed
  session : x.session ∈ x.closedSessions

/-- What holds when a call of `Close` is at a point. -/
def CloseAt (x : Runtime ι κ) : ClosePc → Prop
  | .idle => True
  | .entered | .marking => x.dial ≠ .launching
  | .cancelling | .waiting => x.closed = true ∧ x.dial ≠ .launching
  | .reading => x.Halted
  | .stopping m => x.Halted ∧ m = x.mgr
  | .joining m => x.Halted ∧ x.Stopped m
  | .looking => x.Halted ∧ x.Quiet
  | .closingNet n => x.Halted ∧ x.Quiet ∧ n = x.net
  | .closingTun | .closingSession => x.Halted ∧ x.Quiet ∧ x.NetClosed
  | .leaving | .returned => x.Finished

namespace Settles

variable (h : Settles x y)
include h

theorem halted (hx : x.Halted) : y.Halted :=
  ⟨h.closed hx.closed, h.exited hx.exited, h.dialled hx.dialled⟩

theorem stopped (hx : x.Halted) {m : Option Nat} (hm : x.Stopped m) : y.Stopped m :=
  ⟨hm.1.trans (h.mgr hx.exited hx.dialled).symm,
    fun g hg => (h.mgrs hx.exited hx.dialled g).shutdown (hm.2 g hg)⟩

theorem quiet (hx : x.Halted) (hq : x.Quiet) : y.Quiet := by
  intro m hm
  rw [h.mgr hx.exited hx.dialled] at hm
  have hk := h.mgrs hx.exited hx.dialled m
  exact ⟨hk.shutdown (hq m hm).1, hk.idle (hq m hm).1 (hq m hm).2⟩

theorem netClosed (hx : x.Halted) (hn : x.NetClosed) : y.NetClosed := by
  intro n hn'
  rw [h.net hx.closed] at hn'
  exact h.netstacks (hn n hn')

theorem finished (hx : x.Finished) : y.Finished where
  halted := h.halted hx.halted
  quiet := h.quiet hx.halted hx.quiet
  net := h.netClosed hx.halted hx.net
  session := h.session hx.halted.exited ▸ h.sessions hx.session

theorem closeAt : ∀ {p : ClosePc}, x.CloseAt p → y.CloseAt p
  | .idle, _ => trivial
  | .entered, hx | .marking, hx => h.dialled hx
  | .cancelling, hx | .waiting, hx => ⟨h.closed hx.1, h.dialled hx.2⟩
  | .reading, hx => h.halted hx
  | .stopping _, hx => ⟨h.halted hx.1, hx.2.trans (h.mgr hx.1.exited hx.1.dialled).symm⟩
  | .joining _, hx => ⟨h.halted hx.1, h.stopped hx.1 hx.2⟩
  | .looking, hx => ⟨h.halted hx.1, h.quiet hx.1 hx.2⟩
  | .closingNet _, hx =>
    ⟨h.halted hx.1, h.quiet hx.1 hx.2.1, hx.2.2.trans (h.net hx.1.closed).symm⟩
  | .closingTun, hx | .closingSession, hx =>
    ⟨h.halted hx.1, h.quiet hx.1 hx.2.1, h.netClosed hx.1 hx.2.2⟩
  | .leaving, hx | .returned, hx => h.finished hx

end Settles

/-! ## Steps settle -/

theorem go_shape (x : Runtime ι κ) (m : Nat) (w : Worker) : ∃ mgrs n,
    x.go m w = { x with mgrs := mgrs, started := n } ∧ (∀ g, Keeps (x.mgrs g) (mgrs g)) ∧
      ((x.mgrs m).shutdown = true → n = x.started) := by
  unfold go
  split
  · exact ⟨x.mgrs, x.started, rfl, fun _ => .refl _, fun _ => rfl⟩
  · rename_i hopen
    refine ⟨_, _, rfl, keeps_setMgr ⟨fun hs => ?_, fun hs => ?_⟩, fun hs => ?_⟩ <;>
      exact absurd hs hopen

theorem shutdownMgr_shape (x : Runtime ι κ) (m : Option Nat) : ∃ mgrs,
    x.shutdownMgr m = { x with mgrs := mgrs } ∧ ∀ g, Keeps (x.mgrs g) (mgrs g) := by
  cases m with
  | none => exact ⟨x.mgrs, rfl, fun _ => .refl _⟩
  | some m => exact ⟨_, rfl, keeps_setMgr (keeps_shutdown _)⟩

/-- A manager that was published before is shut down when the current one is. -/
theorem Sound.shutdown_of_quiet (hx : x.Sound) (hq : x.Quiet) {m : Nat}
    (hm : m < x.generations) : (x.mgrs m).shutdown = true := by
  by_cases hcur : x.mgr = some m
  · exact (hq m hcur).1
  · exact (hx.retired m hcur).2 hm

end

end Runtime

section

open Runtime

variable {ι κ : Type} {x y : Runtime ι κ} {cfg : Setup}

theorem WorkerStep.settles {m : Nat} {w : Worker} (h : WorkerStep cfg m w x y) :
    Settles x y := by
  obtain ⟨hw, mgr, sig, sp, rfl, hshut, -⟩ := h.shape
  have hk : Keeps (x.mgrs m) mgr := ⟨hshut, fun _ hidle => absurd (hidle w) hw⟩
  exact { Settles.refl x with mgrs := fun _ _ => keeps_setMgr hk }

theorem WorkerStep.aside {m : Nat} {w : Worker} (h : WorkerStep cfg m w x y) : Aside x y := by
  obtain ⟨-, mgr, sig, sp, rfl, -, -⟩ := h.shape
  exact { Aside.refl x with }

theorem DialStep.aside (h : DialStep cfg x y) : Aside x y := by
  cases h with
  | publish h | finish h => exact { Aside.refl x with }
  | @start m w ws h =>
    obtain ⟨mgrs, n, hgo, -, -⟩ := x.go_shape m w
    rw [hgo]
    exact { Aside.refl x with }

theorem DialStep.settles (h : DialStep cfg x y) (hx : x.Sound) : Settles x y := by
  cases h with
  | publish h =>
    exact { Settles.refl x with
      dialled := fun _ => nofun
      mgr := fun _ hd => absurd h hd
      mgrs := fun _ hd => absurd h hd }
  | @start m w ws h =>
    obtain ⟨mgrs, n, hgo, hk, hn⟩ := x.go_shape m w
    rw [hgo]
    exact { Settles.refl x with
      dialled := fun _ => nofun
      mgrs := fun _ _ => hk
      started := fun _ hq => hn (hx.shutdown_of_quiet hq (hx.dialStarts m _ h)) }
  | finish h => exact { Settles.refl x with dialled := fun _ => nofun }

/-- The supervisor takes no step once it has exited. -/
theorem SupStep.active (h : SupStep cfg x y) : x.sup ≠ .exited := by
  cases h with
  | giveUp h _ => rcases h with h | h | h <;> rw [h] <;> nofun
  | exit h | receive h | bail h | enter h | shutdown h | join h | closeOld h | dial h | dialled h
  | dialFailed h | sleep h | wake h | unbuildable h | abandon h | rearm h | store h | publish h
  | start h | finish h => rw [h]; nofun

theorem SupStep.aside (h : SupStep cfg x y) : Aside x y := by
  cases h with
  | @shutdown m h =>
    obtain ⟨mgrs, hshut, -⟩ := x.shutdownMgr_shape m
    rw [hshut]
    exact { Aside.refl x with }
  | @start m w ws h =>
    obtain ⟨mgrs, n, hgo, -, -⟩ := x.go_shape m w
    rw [hgo]
    exact { Aside.refl x with }
  | closeOld h | abandon h => exact { Aside.refl x with sessions := List.subset_cons_self _ _ }
  | rearm h => cases hm : x.mgr <;> exact { Aside.refl x with }
  | _ => exact { Aside.refl x with }

theorem SupStep.dial_eq (h : SupStep cfg x y) : y.dial = x.dial := by
  cases h with
  | @shutdown m h =>
    obtain ⟨mgrs, hshut, -⟩ := x.shutdownMgr_shape m
    rw [hshut]
  | @start m w ws h =>
    obtain ⟨mgrs, n, hgo, -, -⟩ := x.go_shape m w
    rw [hgo]
  | rearm h => cases hm : x.mgr <;> rfl
  | _ => rfl

theorem SupStep.settles (h : SupStep cfg x y) : Settles x y := by
  have hact := h.active
  constructor
  case closed => exact fun hc => h.aside.closed.trans hc
  case dialled => exact fun hd => h.dial_eq ▸ hd
  case net => exact fun _ => h.aside.net
  case netstacks => exact fun n hn => h.aside.closedStacks ▸ hn
  case sessions => exact h.aside.sessions
  all_goals exact fun he => absurd he hact

theorem CloseStep.settles [DecidableEq ι] {i : ι} (h : CloseStep cfg i x y) : Settles x y := by
  cases h with
  | mark h => exact { Settles.refl x with closed := fun _ => rfl }
  | @shutdown m h =>
    obtain ⟨mgrs, hshut, hk⟩ := x.shutdownMgr_shape m
    rw [hshut]
    exact { Settles.refl x with mgrs := fun _ _ => hk }
  | closeNet h => exact { Settles.refl x with netstacks := List.subset_append_right _ _ }
  | closeSession h => exact { Settles.refl x with sessions := List.subset_cons_self _ _ }
  | _ => exact { Settles.refl x with }

theorem NetStep.settles [DecidableEq κ] {k : κ} (h : NetStep k x y) : Settles x y := by
  cases h with
  | publish h hopen =>
    exact { Settles.refl x with net := fun hc => absurd (hopen.symm.trans hc) nofun }
  | discard h => exact { Settles.refl x with netstacks := List.subset_append_right _ _ }
  | _ => exact { Settles.refl x with }

end

/-! ## The netstack -/

/-- The call is the one that builds the netstack. -/
def NetPc.builds : NetPc → Bool
  | building | built _ | discarding _ => true
  | _ => false

namespace Runtime

variable {ι κ : Type} {x y : Runtime ι κ} {cfg : Setup}

/-- The netstack is in the hands of the call that built it. -/
def HeldBy (x : Runtime ι κ) (n : Nat) (k : κ) : Prop :=
  x.nets k = .built (some n) ∨ x.nets k = .discarding (some n)

structure NetSound (x : Runtime ι κ) : Prop where
  unpublished : x.netOnce ≠ .done → x.net = none
  running : ∀ k, (x.nets k).builds = true → x.netOnce = .running
  unique : ∀ k k', (x.nets k).builds = true → (x.nets k').builds = true → k = k'
  kept : ∀ n < x.netstacks, n ∈ x.closedStacks ∨ x.net = some n ∨ ∃ k, x.HeldBy n k

theorem netSound_start (cfg : Setup) : (start cfg : Runtime ι κ).NetSound where
  unpublished _ := rfl
  running _ := nofun
  unique _ _ := nofun
  kept n hn := absurd hn (Nat.not_lt_zero n)

variable [DecidableEq κ] {k : κ} {p : NetPc}

theorem caller_nets (x : Runtime ι κ) (k k' : κ) (p : NetPc) :
    (x.caller k p).nets k' = if k' = k then p else x.nets k' :=
  Function.update_apply x.nets k p k'

theorem HeldBy.caller {n : Nat} {k' : κ} (h : x.HeldBy n k')
    (hk : k' = k → p = .built (some n) ∨ p = .discarding (some n)) : (x.caller k p).HeldBy n k' := by
  unfold HeldBy
  rw [caller_nets]
  split
  · exact hk ‹_›
  · exact h

/-- A call that does not build gets to another point. -/
theorem NetSound.caller (h : x.NetSound) (hold : (x.nets k).builds = false)
    (hnew : p.builds = false) : (x.caller k p).NetSound := by
  have hnets : ∀ k', ((x.caller k p).nets k').builds = true → (x.nets k').builds = true := by
    intro k'
    rw [caller_nets]
    split
    · exact fun hp => absurd (hnew.symm.trans hp) nofun
    · exact id
  constructor
  case unpublished => exact h.unpublished
  case running => exact fun k' hk' => h.running k' (hnets k' hk')
  case unique => exact fun k₁ k₂ h₁ h₂ => h.unique k₁ k₂ (hnets k₁ h₁) (hnets k₂ h₂)
  case kept =>
    intro n hn
    refine (h.kept n hn).imp_right (Or.imp_right ?_)
    rintro ⟨k', hk'⟩
    refine ⟨k', hk'.caller fun he => ?_⟩
    subst he
    rcases hk' with hk' | hk' <;> rw [hk'] at hold <;> exact absurd hold nofun

/-- The call that builds gets to another point. -/
theorem NetSound.builder (h : x.NetSound) (hold : (x.nets k).builds = true)
    (hheld : ∀ n, x.HeldBy n k → p = .built (some n) ∨ p = .discarding (some n)) :
    (x.caller k p).NetSound := by
  have hnets : ∀ k', ((x.caller k p).nets k').builds = true → k' = k := by
    intro k'
    rw [caller_nets]
    split
    · exact fun _ => ‹_›
    · exact fun hk' => h.unique k' k hk' hold
  constructor
  case unpublished => exact h.unpublished
  case running => exact fun _ _ => h.running k hold
  case unique => exact fun k₁ k₂ h₁ h₂ => (hnets k₁ h₁).trans (hnets k₂ h₂).symm
  case kept =>
    intro n hn
    refine (h.kept n hn).imp_right (Or.imp_right ?_)
    rintro ⟨k', hk'⟩
    exact ⟨k', hk'.caller fun he => hheld n (he ▸ hk')⟩

/-- The call that builds leaves the once, and takes care of what it held. -/
theorem NetSound.leave (h : x.NetSound) {net : Option Nat} {closed : List Nat}
    (hold : (x.nets k).builds = true) (hclosed : x.closedStacks ⊆ closed)
    (hheld : ∀ n, x.HeldBy n k → n ∈ closed ∨ net = some n) :
    NetSound { x.caller k .checking with net := net, netOnce := .done, closedStacks := closed } := by
  have hnone : x.net = none := h.unpublished (by rw [h.running k hold]; nofun)
  have hnets : ∀ k', ((x.caller k .checking).nets k').builds ≠ true := by
    intro k'
    rw [caller_nets]
    split
    · nofun
    · exact fun hk' => absurd (h.unique k' k hk' hold) ‹_›
  constructor
  case unpublished => exact fun hd => absurd rfl hd
  case running => exact fun k' hk' => absurd hk' (hnets k')
  case unique => exact fun k' _ hk' => absurd hk' (hnets k')
  case kept =>
    intro n hn
    rcases h.kept n hn with hc | hp | ⟨k', hk'⟩
    · exact .inl (hclosed hc)
    · exact absurd (hnone.symm.trans hp) nofun
    · have hb : (x.nets k').builds = true := by rcases hk' with hk' | hk' <;> rw [hk'] <;> rfl
      obtain rfl := h.unique k' k hb hold
      exact (hheld n hk').imp_right .inl

end Runtime

section

variable {ι κ : Type} {x y : Runtime ι κ} {cfg : Setup}

theorem NetStep.netSound [DecidableEq κ] {k : κ} (h : NetStep k x y) (hx : x.NetSound) :
    y.NetSound := by
  cases h with
  | call h => exact hx.caller (by rw [h]; rfl) rfl
  | first h honce =>
    have hnets : ∀ k', ((x.caller k .building).nets k').builds = true → k' = k := by
      intro k' hk'
      by_contra hne
      rw [Runtime.caller_nets, if_neg hne] at hk'
      rw [hx.running k' hk'] at honce
      exact absurd honce nofun
    constructor
    case unpublished => exact fun _ => hx.unpublished (by rw [honce]; nofun)
    case running => exact fun _ _ => rfl
    case unique => exact fun k₁ k₂ h₁ h₂ => (hnets k₁ h₁).trans (hnets k₂ h₂).symm
    case kept =>
      intro n hn
      refine (hx.kept n hn).imp_right (Or.imp_right ?_)
      rintro ⟨k', hk'⟩
      refine ⟨k', hk'.caller fun he => ?_⟩
      subst he
      rcases hk' with hk' | hk' <;> rw [h] at hk' <;> cases hk'
  | later h honce => exact hx.caller (by rw [h]; rfl) rfl
  | build h =>
    have hbuilt : (x.caller k (.built (some x.netstacks))).NetSound := by
      refine hx.builder (by rw [h]; rfl) ?_
      rintro n (hn | hn) <;> rw [h] at hn <;> cases hn
    refine { hbuilt with kept := fun n hn => ?_ }
    rcases Nat.lt_succ_iff_lt_or_eq.mp hn with hlt | rfl
    · exact hbuilt.kept n hlt
    · exact .inr (.inr ⟨k, .inl ((x.caller_nets k k _).trans (if_pos rfl))⟩)
  | buildFailed h =>
    refine hx.builder (by rw [h]; rfl) ?_
    rintro n (hn | hn) <;> rw [h] at hn <;> cases hn
  | publish h hopen =>
    refine hx.leave (by rw [h]; rfl) (List.Subset.refl _) ?_
    rintro n (hn | hn) <;> rw [h] at hn <;> cases hn
    exact .inr rfl
  | refuse h hclosed =>
    refine hx.builder (by rw [h]; rfl) ?_
    rintro n (hn | hn) <;> rw [h] at hn <;> cases hn
    exact .inr rfl
  | discard h =>
    refine hx.leave (by rw [h]; rfl) (List.subset_append_right _ _) ?_
    rintro n (hn | hn) <;> rw [h] at hn <;> cases hn
    exact .inl List.mem_cons_self
  | check h => exact hx.caller (by rw [h]; rfl) rfl

/-- Others only close netstacks. -/
theorem Runtime.NetSound.frame (hx : x.NetSound) (hnets : y.nets = x.nets)
    (honce : y.netOnce = x.netOnce) (hnet : y.net = x.net) (hstacks : y.netstacks = x.netstacks)
    (hclosed : x.closedStacks ⊆ y.closedStacks) : y.NetSound where
  unpublished := by
    rw [honce, hnet]
    exact hx.unpublished
  running := by
    rw [hnets, honce]
    exact hx.running
  unique := by
    rw [hnets]
    exact hx.unique
  kept n hn := by
    unfold Runtime.HeldBy
    rw [hnets, hnet]
    exact (hx.kept n (hstacks ▸ hn)).imp_left (@hclosed n)

theorem Runtime.NetSound.aside (hx : x.NetSound) (h : Runtime.Aside x y) : y.NetSound :=
  hx.frame h.nets h.netOnce h.net h.netstacks fun _ hn => h.closedStacks ▸ hn

theorem CloseStep.nets_eq [DecidableEq ι] {i : ι} (h : CloseStep cfg i x y) :
    y.nets = x.nets ∧ y.netOnce = x.netOnce ∧ y.net = x.net ∧ y.netstacks = x.netstacks := by
  cases h with
  | @shutdown m h =>
    obtain ⟨mgrs, hshut, -⟩ := x.shutdownMgr_shape m
    rw [hshut]
    exact ⟨rfl, rfl, rfl, rfl⟩
  | _ => exact ⟨rfl, rfl, rfl, rfl⟩

theorem NetStep.closers_eq [DecidableEq κ] {k : κ} (h : NetStep k x y) :
    y.closers = x.closers ∧ y.closeOnce = x.closeOnce := by
  cases h <;> exact ⟨rfl, rfl⟩

end

/-! ## Calls of Close -/

section

variable {ι κ : Type} {x y : Runtime ι κ} {cfg : Setup}

/-- Each call of `Close` has done what its point says, and the one that was let through is
done when the once is. -/
structure Runtime.CloseSound (x : Runtime ι κ) : Prop where
  points : ∀ i, x.CloseAt (x.closers i)
  done : x.closeOnce = .done → x.Finished

/-- The steps of others keep what a call of `Close` has done. -/
theorem Runtime.CloseSound.settles (hx : x.CloseSound) (h : Settles x y)
    (hclosers : y.closers = x.closers) (honce : y.closeOnce = x.closeOnce) : y.CloseSound where
  points i := hclosers ▸ h.closeAt (hx.points i)
  done hd := h.finished (hx.done (honce ▸ hd))

/-- What a step of `Close` leads to. -/
theorem CloseStep.point [DecidableEq ι] {i : ι} (h : CloseStep cfg i x y) (hx : x.CloseSound)
    (hs : x.Sound) : ∃ p, y.closers = Function.update x.closers i p ∧ y.CloseAt p ∧
      (y.closeOnce = .done → x.closeOnce = .done ∨ y.Finished) := by
  have hat := hx.points i
  cases h with
  | call h hclient =>
    refine ⟨.entered, rfl, ?_, .inl⟩
    rintro (hl : x.dial = .launching)
    rcases hclient with hd | hsp
    · exact absurd (hl.symm.trans hd) nofun
    · exact absurd ((hs.launching hl).2.2.2.1.symm.trans hsp) nofun
  | first h honce => exact ⟨.marking, rfl, by rw [h] at hat; exact hat, nofun⟩
  | later h honce =>
    have hfin := hx.done honce
    exact ⟨.returned, rfl, { hfin with halted := { hfin.halted with } }, .inl⟩
  | mark h => exact ⟨.cancelling, rfl, ⟨rfl, by rw [h] at hat; exact hat⟩, .inl⟩
  | cancel h => exact ⟨.waiting, rfl, by rw [h] at hat; exact hat, .inl⟩
  | joinSup h hsup =>
    rw [h] at hat
    exact ⟨.reading, rfl, ⟨hat.1, hsup, hat.2⟩, .inl⟩
  | readMgr h =>
    rw [h] at hat
    exact ⟨.stopping x.mgr, rfl, ⟨{ hat with }, rfl⟩, .inl⟩
  | @shutdown m h =>
    rw [h] at hat
    obtain ⟨hhalt, rfl⟩ := hat
    have hstop := x.stopped_shutdownMgr
    obtain ⟨mgrs, hshut, -⟩ := x.shutdownMgr_shape x.mgr
    rw [hshut] at hstop ⊢
    exact ⟨.joining x.mgr, rfl, ⟨{ hhalt with }, hstop⟩, .inl⟩
  | @join m h hm =>
    rw [h] at hat
    exact ⟨.looking, rfl, ⟨{ hat.1 with }, hat.2.quiet hm⟩, .inl⟩
  | readNet h =>
    rw [h] at hat
    exact ⟨.closingNet x.net, rfl, ⟨{ hat.1 with }, hat.2, rfl⟩, .inl⟩
  | @closeNet n h =>
    rw [h] at hat
    obtain ⟨hhalt, hq, rfl⟩ := hat
    refine ⟨.closingTun, rfl, ⟨{ hhalt with }, hq, fun n (hn : x.net = some n) => ?_⟩, .inl⟩
    have hmem : n ∈ x.net.toList := by rw [hn]; exact List.mem_cons_self
    exact List.mem_append_left _ hmem
  | closeTun h =>
    rw [h] at hat
    exact ⟨.closingSession, rfl, ⟨{ hat.1 with }, hat.2⟩, .inl⟩
  | closeSession h =>
    rw [h] at hat
    exact ⟨.leaving, rfl, ⟨{ hat.1 with }, hat.2.1, hat.2.2, List.mem_cons_self⟩, .inl⟩
  | leave h =>
    rw [h] at hat
    have hfin : Runtime.Finished { x.closer i .returned with closeOnce := .done } :=
      ⟨{ hat.halted with }, hat.quiet, hat.net, hat.session⟩
    exact ⟨.returned, rfl, hfin, fun _ => .inr hfin⟩

theorem CloseStep.closeSound [DecidableEq ι] {i : ι} (h : CloseStep cfg i x y)
    (hx : x.CloseSound) (hs : x.Sound) : y.CloseSound := by
  obtain ⟨p, hclosers, hp, hdone⟩ := h.point hx hs
  constructor
  case points =>
    intro j
    rw [hclosers, Function.update_apply]
    split
    · exact hp
    · exact h.settles.closeAt (hx.points j)
  case done =>
    intro hd
    rcases hdone hd with hold | hfin
    · exact h.settles.finished (hx.done hold)
    · exact hfin

/-! ## Runs -/

/-- What holds in every state of a client. -/
structure Runtime.Inv (x : Runtime ι κ) : Prop where
  sound : x.Sound
  close : x.CloseSound
  net : x.NetSound

theorem Runtime.inv_start (cfg : Setup) : (Runtime.start cfg : Runtime ι κ).Inv where
  sound := Runtime.sound_start cfg
  close := ⟨fun _ => trivial, nofun⟩
  net := Runtime.netSound_start cfg

variable [DecidableEq ι] [DecidableEq κ]

theorem RuntimeStep.settles (h : RuntimeStep cfg x y) (hx : x.Sound) : Runtime.Settles x y := by
  cases h with
  | worker m w h => exact h.settles
  | dial h => exact h.settles hx
  | sup h => exact h.settles
  | close i h => exact h.settles
  | net k h => exact h.settles

theorem RuntimeStep.inv (h : RuntimeStep cfg x y) (hx : x.Inv) : y.Inv := by
  have hset := h.settles hx.sound
  cases h with
  | worker m w h =>
    have haside := h.aside
    exact ⟨h.sound hx.sound, hx.close.settles hset haside.closers haside.closeOnce,
      hx.net.aside haside⟩
  | dial h =>
    have haside := h.aside
    exact ⟨h.sound hx.sound, hx.close.settles hset haside.closers haside.closeOnce,
      hx.net.aside haside⟩
  | sup h =>
    have haside := h.aside
    exact ⟨h.sound hx.sound, hx.close.settles hset haside.closers haside.closeOnce,
      hx.net.aside haside⟩
  | close i h =>
    have hm : ∀ m, x.closers i = .stopping m → m = x.mgr := by
      intro m hm
      have hat := hx.close.points i
      rw [hm] at hat
      exact hat.2
    obtain ⟨hnets, honce, hnet, hstacks⟩ := h.nets_eq
    exact ⟨h.sound hx.sound hm, h.closeSound hx.close hx.sound,
      hx.net.frame hnets honce hnet hstacks hset.netstacks⟩
  | net k h =>
    exact ⟨h.sound hx.sound, hx.close.settles hset h.closers_eq.1 h.closers_eq.2,
      h.netSound hx.net⟩

theorem RuntimeSteps.inv (h : RuntimeSteps cfg (.start cfg) x) : x.Inv := by
  induction h with
  | refl => exact Runtime.inv_start cfg
  | tail _ hstep ih => exact hstep.inv ih

/-- What can no longer change after `Close`: no worker is started and no session is stored,
a netstack that is still being built is not left open, and a call of `netstack` returns
nothing else than `net.ErrClosed`. -/
structure Runtime.Later (x y : Runtime ι κ) : Prop where
  started : y.started = x.started
  stores : y.stores = x.stores
  held : ∀ n k, x.HeldBy n k → y.HeldBy n k ∨ n ∈ y.closedStacks
  refused : ∀ k, (∀ n, x.nets k ≠ .returned (.other n)) → ∀ n, y.nets k ≠ .returned (.other n)

omit [DecidableEq ι] in
/-- A call of `netstack` does not touch the others. -/
theorem NetStep.nets_of_ne {k k' : κ} (h : NetStep k x y) (hk : k' ≠ k) : y.nets k' = x.nets k' := by
  cases h <;> exact (Runtime.caller_nets _ _ _ _).trans (if_neg hk)

omit [DecidableEq ι] in
/-- A call of `netstack` that goes on after the client is closed. -/
theorem NetStep.after_close {k : κ} (h : NetStep k x y) (hc : x.closed = true) :
    (∀ n, x.HeldBy n k → y.HeldBy n k ∨ n ∈ y.closedStacks) ∧
      ∀ n, y.nets k ≠ .returned (.other n) := by
  have hself : ∀ (z : Runtime ι κ) p, (z.caller k p).nets k = p :=
    fun z p => (z.caller_nets k k p).trans (if_pos rfl)
  cases h with
  | publish h hopen => exact absurd (hopen.symm.trans hc) nofun
  | @refuse m h hclosed =>
    refine ⟨?_, fun n hn => absurd ((hself x _).symm.trans hn) nofun⟩
    rintro n (hn | hn) <;> rw [h] at hn <;> cases hn
    exact .inl (.inr (hself x _))
  | @discard m h =>
    refine ⟨?_, fun n hn => absurd ((hself (x.closeStack m) _).symm.trans hn) nofun⟩
    rintro n (hn | hn) <;> rw [h] at hn <;> cases hn
    exact .inr List.mem_cons_self
  | check h =>
    refine ⟨?_, fun n hn => ?_⟩
    · rintro n (hn | hn) <;> rw [h] at hn <;> cases hn
    · rw [hself, if_pos hc] at hn
      cases hn
  | call h | first h | later h | build h | buildFailed h =>
    refine ⟨?_, fun n hn => absurd ((hself x _).symm.trans hn) nofun⟩
    rintro n (hn | hn) <;> rw [h] at hn <;> cases hn

theorem RuntimeStep.later (h : RuntimeStep cfg x y) (hx : x.Sound) (hfin : x.Finished) :
    x.Later y := by
  have hset := h.settles hx
  have hsame : (y.nets = x.nets) → x.Later y := by
    intro hnets
    refine ⟨hset.started hfin.halted.exited hfin.quiet, hset.stores hfin.halted.exited, ?_, ?_⟩
    · unfold Runtime.HeldBy
      rw [hnets]
      exact fun n k hk => .inl hk
    · rw [hnets]
      exact fun k hk => hk
  cases h with
  | worker m w h => exact hsame h.aside.nets
  | dial h => exact hsame h.aside.nets
  | sup h => exact hsame h.aside.nets
  | close i h => exact hsame h.nets_eq.1
  | net k h =>
    refine ⟨hset.started hfin.halted.exited hfin.quiet, hset.stores hfin.halted.exited, ?_, ?_⟩
    · intro n k' hk'
      by_cases hk : k' = k
      · subst hk
        exact (h.after_close hfin.halted.closed).1 n hk'
      · unfold Runtime.HeldBy
        rw [h.nets_of_ne hk]
        exact .inl hk'
    · intro k' hk'
      by_cases hk : k' = k
      · subst hk
        exact (h.after_close hfin.halted.closed).2
      · rw [h.nets_of_ne hk]
        exact hk'

theorem RuntimeSteps.later (h : RuntimeSteps cfg x y) (hx : x.Inv) (hfin : x.Finished) :
    y.Inv ∧ y.Finished ∧ x.Later y := by
  induction h with
  | refl => exact ⟨hx, hfin, rfl, rfl, fun _ _ hk => .inl hk, fun _ hk => hk⟩
  | @tail y z _ hstep ih =>
    obtain ⟨hy, hfy, hl⟩ := ih
    have hset := hstep.settles hy.sound
    have hl' := hstep.later hy.sound hfy
    refine ⟨hstep.inv hy, hset.finished hfy, hl'.started.trans hl.started,
      hl'.stores.trans hl.stores, fun n k hk => ?_, fun k hk => hl'.refused k (hl.refused k hk)⟩
    rcases hl.held n k hk with hheld | hclosed
    · exact hl'.held n k hheld
    · exact .inr (hset.netstacks hclosed)

/-- When a call of `Close` has returned, every session is closed, every worker has returned
and every netstack is closed or in the hands of the call that builds it.  It stays so: a
later step neither starts a worker nor stores a session, the call that holds a netstack
closes it before it returns, and calls of `netstack` that start afterwards return
`net.ErrClosed`. -/
theorem close_leaks_nothing (hx : RuntimeSteps cfg (.start cfg) x) {i : ι}
    (hi : x.closers i = .returned) (hy : RuntimeSteps cfg x y) :
    (∀ s < y.sessions, s ∈ y.closedSessions) ∧ (∀ m, (y.mgrs m).Idle) ∧
      (∀ n < y.netstacks, n ∈ y.closedStacks ∨ ∃ k, y.HeldBy n k) ∧
      y.started = x.started ∧ y.stores = x.stores ∧
      (∀ n k, y.HeldBy n k → ∀ z r, RuntimeSteps cfg y z → z.nets k = .returned r →
        n ∈ z.closedStacks) ∧
      ∀ k r, x.nets k = .idle → y.nets k = .returned r → r = .errClosed := by
  have hinv := hx.inv
  have hfin : x.Finished := by
    have hat := hinv.close.points i
    rw [hi] at hat
    exact hat
  obtain ⟨hinvy, hfiny, hl⟩ := hy.later hinv hfin
  refine ⟨fun s hs => ?_, fun m => ?_, fun n hn => ?_, hl.started, hl.stores, ?_, ?_⟩
  · rcases hinvy.sound.sessions s hs with hclosed | rfl | hheld
    · exact hclosed
    · exact hfiny.session
    · rw [hfiny.halted.exited] at hheld
      exact absurd hheld nofun
  · by_cases hm : y.mgr = some m
    · exact (hfiny.quiet m hm).2
    · exact (hinvy.sound.retired m hm).1
  · rcases hinvy.net.kept n hn with hclosed | hnet | hheld
    · exact .inl hclosed
    · exact .inl (hfiny.net n hnet)
    · exact .inr hheld
  · intro n k hk z r hz hr
    refine ((hz.later hinvy hfiny).2.2.held n k hk).resolve_left ?_
    rintro (h | h) <;> exact absurd (hr.symm.trans h) nofun
  · intro k r hk hr
    cases r with
    | errClosed => rfl
    | other n => exact absurd hr (hl.refused k (by rw [hk]; exact fun _ => nofun) n)

/-- The client is closed while the supervisor is dialling anew and a netstack is built. -/
theorem closing_sample : ∃ x y : Runtime Unit Bool, RuntimeSteps sampleSetup (.start sampleSetup) x ∧
    x.closers () = .returned ∧ x.HeldBy 0 true ∧ x.nets false = .idle ∧ x.sessions = 2 ∧
    RuntimeSteps sampleSetup x y ∧ ∀ k, y.nets k = .returned .errClosed := by
  have h₁ : RuntimeSteps sampleSetup (.start sampleSetup : Runtime Unit Bool) _ :=
    (((((((Relation.ReflTransGen.refl.tail (.dial (.publish rfl))).tail (.dial (.start rfl))).tail
      (.dial (.start rfl))).tail (.dial (.finish rfl))).tail (.net true (.call rfl))).tail
      (.net true (.first rfl rfl))).tail (.net true (.build rfl)))
  have h₂ := ((((((((((h₁.tail (.worker 0 .ikeDriver (.onDead rfl rfl))).tail
    (.sup (.receive rfl rfl))).tail (.sup (.enter rfl rfl))).tail (.sup (.shutdown rfl))).tail
    (.worker 0 .rxDemux (.returned rfl (.inl rfl)))).tail (.worker 0 .rxDemux (.done rfl))).tail
    (.worker 0 .ikeDriver (.returned rfl (.inr rfl)))).tail (.worker 0 .ikeDriver (.done rfl))).tail
    (.sup (.join rfl (by rintro g ⟨⟩ w; cases w <;> rfl)))).tail (.sup (.closeOld rfl)))
  have h₃ := ((((h₂.tail (.sup (.dial rfl rfl))).tail (.close () (.call rfl (.inl rfl)))).tail
    (.close () (.first rfl rfl))).tail (.close () (.mark rfl))).tail (.close () (.cancel rfl))
  have h₄ := ((((((h₃.tail (.sup (.dialled rfl))).tail (.sup (.store rfl))).tail
    (.sup (.publish rfl))).tail (.sup (.start rfl))).tail (.sup (.start rfl))).tail
    (.sup (.finish rfl))).tail (.sup (.exit rfl rfl))
  have h₅ := ((((((((h₄.tail (.close () (.joinSup rfl rfl))).tail (.close () (.readMgr rfl))).tail
    (.close () (.shutdown rfl))).tail (.worker 1 .rxDemux (.returned rfl (.inl rfl)))).tail
    (.worker 1 .rxDemux (.done rfl))).tail (.worker 1 .ikeDriver (.returned rfl (.inl rfl)))).tail
    (.worker 1 .ikeDriver (.done rfl))).tail
    (.close () (.join rfl (by rintro g ⟨⟩ w; cases w <;> rfl))))
  have h₆ := ((((h₅.tail (.close () (.readNet rfl))).tail (.close () (.closeNet rfl))).tail
    (.close () (.closeTun rfl))).tail (.close () (.closeSession rfl))).tail (.close () (.leave rfl))
  refine ⟨_, _, h₆, rfl, .inl rfl, rfl, rfl, (((((Relation.ReflTransGen.refl.tail
    (.net true (.refuse rfl rfl))).tail (.net true (.discard rfl))).tail
    (.net true (.check rfl))).tail (.net false (.call rfl))).tail (.net false (.later rfl rfl))).tail
    (.net false (.check rfl)), ?_⟩
  rintro (_ | _) <;> rfl

theorem close_leaks_nothing_sample : ∃ x y : Runtime Unit Bool,
    RuntimeSteps sampleSetup (.start sampleSetup) x ∧ x.closers () = .returned ∧
    RuntimeSteps sampleSetup x y ∧ x.sessions = 2 ∧
    (∀ s < x.sessions, s ∈ x.closedSessions) ∧ (∀ m, (x.mgrs m).Idle) ∧ x.HeldBy 0 true ∧
    y.nets true = .returned .errClosed ∧ 0 ∈ y.closedStacks ∧ y.started = x.started := by
  obtain ⟨x, y, hx, hi, hheld, -, hs, hy, hnets⟩ := closing_sample
  have hclosed := close_leaks_nothing hx hi .refl
  have hlater := close_leaks_nothing hx hi hy
  exact ⟨x, y, hx, hi, hy, hs, hclosed.1, hclosed.2.1, hheld, hnets true,
    hclosed.2.2.2.2.2.1 0 true hheld y _ hy (hnets true), hlater.2.2.2.1⟩

end

end GoIpsec.Ipsec
