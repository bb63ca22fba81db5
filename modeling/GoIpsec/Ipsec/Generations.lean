import GoIpsec.Ipsec.Lifecycle

/-!
# The generations of a client

The goroutines of a client are related by an assertion at each point of the supervisor
(`SupAt`).  `Sound` is what it rests on: only the workers of the current generation run,
and a session is closed, or is the current one, or is in the hands of the supervisor.  Each
step keeps it.
-/

set_option linter.dupNamespace false

namespace GoIpsec.Ipsec

/-- The session in the hands of the supervisor. -/
def SupPc.holds : SupPc → Option Nat
  | dialled s | abandoning s => some s
  | _ => none

namespace Runtime

variable {ι κ : Type}

/-- The current manager is shut down, and its workers have returned. -/
def Quiet (x : Runtime ι κ) : Prop :=
  ∀ m, x.mgr = some m → (x.mgrs m).shutdown = true ∧ (x.mgrs m).Idle

/-- The manager is the current one, and is shut down. -/
def Stopped (x : Runtime ι κ) (m : Option Nat) : Prop :=
  m = x.mgr ∧ ∀ g, m = some g → (x.mgrs g).shutdown = true

theorem Stopped.quiet {x : Runtime ι κ} {m : Option Nat} (h : x.Stopped m) (hm : x.Joined m) :
    x.Quiet := by
  obtain ⟨rfl, hshut⟩ := h
  exact fun g hg => ⟨hshut g hg, hm g hg⟩

/-- What holds when the supervisor is at a point. -/
def SupAt (x : Runtime ι κ) : SupPc → Prop
  | .waiting | .entered | .exited => True
  | .stopping m => m = x.mgr
  | .joining m => x.Stopped m
  | .closing | .launching => x.Quiet
  | .redialing | .dialing | .failed | .sleeping | .dialled _ | .abandoning _ | .rearming =>
    x.Quiet ∧ x.session ∈ x.closedSessions
  | .starting m _ => x.mgr = some m

/-- What holds after every step. -/
structure Sound (x : Runtime ι κ) : Prop where
  retired : ∀ m, x.mgr ≠ some m →
    (x.mgrs m).Idle ∧ (m < x.generations → (x.mgrs m).shutdown = true)
  current : ∀ m, x.mgr = some m → m < x.generations
  dialStarts : ∀ m ws, x.dial = .starting m ws → m < x.generations
  sup : x.SupAt x.sup
  sessions : ∀ s < x.sessions, s ∈ x.closedSessions ∨ s = x.session ∨ x.sup.holds = some s
  signal : ∀ g, x.deathSig = some g → g < x.generations
  /-- Nobody has been started before the first manager is published. -/
  launching : x.dial = .launching → x.mgr = none ∧ x.generations = 0 ∧ x.deathSig = none ∧
    x.spawned = false ∧ (x.sup = .waiting ∨ x.sup = .exited)

theorem sound_start (cfg : Setup) : (start cfg : Runtime ι κ).Sound := by
  have hsup : (start cfg : Runtime ι κ).sup = .waiting ∨ (start cfg : Runtime ι κ).sup = .exited := by
    cases h : cfg.autoReconnect <;> simp [start, h]
  constructor
  case retired => exact fun m _ => ⟨fun _ => rfl, fun hm => absurd hm (Nat.not_lt_zero m)⟩
  case current => exact nofun
  case dialStarts => exact nofun
  case sup => rcases hsup with hsup | hsup <;> rw [hsup] <;> trivial
  case sessions => exact fun s hs => .inr (.inl (Nat.lt_one_iff.mp hs))
  case signal => exact nofun
  case launching => exact fun _ => ⟨rfl, rfl, rfl, rfl, hsup⟩

/-- A signal in the channel was there before, or is of the generation that raises one. -/
theorem deathSig_onDead {cfg : Setup} {x : Runtime ι κ} {m g : Nat}
    (h : (x.onDead cfg m).deathSig = some g) : x.deathSig = some g ∨ g = m := by
  cases hsig : x.deathSig with
  | some g' =>
    simp only [onDead, hsig, Option.getD_some] at h
    split at h <;> exact .inl h
  | none =>
    simp only [onDead, hsig, Option.getD_none] at h
    split at h
    · exact .inr (Option.some.inj h).symm
    · exact absurd h nofun

theorem setMgr_mgrs (x : Runtime ι κ) (m m' : Nat) (mgr : Manager) :
    (x.setMgr m mgr).mgrs m' = if m' = m then mgr else x.mgrs m' :=
  Function.update_apply x.mgrs m mgr m'

section Sound

variable {x : Runtime ι κ} {m : Nat} {mgr : Manager}

/-- A worker that is waited for is of the current generation. -/
theorem Sound.mgr_of_worker (h : x.Sound) {w : Worker} (hw : (x.mgrs m).workers w ≠ none) :
    x.mgr = some m :=
  by_contra fun hm => hw ((h.retired m hm).1 w)

/-- A manager that takes workers is the current one. -/
theorem Sound.mgr_of_open (h : x.Sound) (hm : m < x.generations)
    (hopen : (x.mgrs m).shutdown = false) : x.mgr = some m := by
  by_contra hne
  rw [(h.retired m hne).2 hm] at hopen
  exact absurd hopen nofun

theorem Sound.dialled_of_mgr (h : x.Sound) (hm : x.mgr = some m) : x.dial ≠ .launching := by
  intro hd
  rw [(h.launching hd).1] at hm
  exact absurd hm nofun

theorem Sound.dialled_of_sup (h : x.Sound) (hw : x.sup ≠ .waiting) (he : x.sup ≠ .exited) :
    x.dial ≠ .launching := fun hd => (h.launching hd).2.2.2.2.elim hw he

/-- The current manager may change, but a shutdown is not undone and no worker is started
under a manager that is shut down. -/
structure Keeps (old new : Manager) : Prop where
  shutdown : old.shutdown = true → new.shutdown = true
  idle : old.shutdown = true → old.Idle → new.Idle

theorem keeps_shutdown (old : Manager) : Keeps old { old with shutdown := true } :=
  ⟨fun _ => rfl, fun _ h => h⟩

theorem Keeps.quiet (h : Keeps (x.mgrs m) mgr) (hx : x.Quiet) : (x.setMgr m mgr).Quiet := by
  intro g hg
  rw [setMgr_mgrs]
  split
  · subst g
    exact ⟨h.shutdown (hx m hg).1, h.idle (hx m hg).1 (hx m hg).2⟩
  · exact hx g hg

theorem Keeps.stopped (h : Keeps (x.mgrs m) mgr) {g : Option Nat} (hx : x.Stopped g) :
    (x.setMgr m mgr).Stopped g := by
  refine ⟨hx.1, fun g' hg' => ?_⟩
  rw [setMgr_mgrs]
  split
  · subst g'
    exact h.shutdown (hx.2 m hg')
  · exact hx.2 g' hg'

theorem Keeps.supAt (h : Keeps (x.mgrs m) mgr) : ∀ {p : SupPc}, x.SupAt p →
    (x.setMgr m mgr).SupAt p
  | .waiting, _ | .entered, _ | .exited, _ => trivial
  | .stopping _, hx => hx
  | .joining _, hx => h.stopped hx
  | .closing, hx | .launching, hx => h.quiet hx
  | .redialing, hx | .dialing, hx | .failed, hx | .sleeping, hx | .dialled _, hx
  | .abandoning _, hx | .rearming, hx => ⟨h.quiet hx.1, hx.2⟩
  | .starting _ _, hx => hx

theorem Sound.setMgr (h : x.Sound) (hm : x.mgr = some m) (hk : Keeps (x.mgrs m) mgr) :
    (x.setMgr m mgr).Sound where
  retired g hg := by
    have hne : g ≠ m := fun hgm => hg (hgm ▸ hm)
    rw [setMgr_mgrs, if_neg hne]
    exact h.retired g hg
  current := h.current
  dialStarts := h.dialStarts
  sup := hk.supAt h.sup
  sessions := h.sessions
  signal := h.signal
  launching := h.launching

/-- Signals are raised once there are workers. -/
theorem Sound.raise (h : x.Sound) (hd : x.dial ≠ .launching) {sig : Option Nat} {sp : Bool}
    (hsig : ∀ g, sig = some g → g < x.generations) :
    Sound { x with deathSig := sig, spawned := sp } :=
  { h with signal := hsig, launching := fun hl => absurd hl hd }

/-- The supervisor gets to a point without doing anything else. -/
theorem Sound.goto (h : x.Sound) {p : SupPc} (hp : x.SupAt p)
    (hholds : ∀ s, x.sup.holds = some s → s ∈ x.closedSessions ∨ p.holds = some s)
    (hd : x.dial = .launching → p = .waiting ∨ p = .exited) : Sound { x with sup := p } where
  retired := h.retired
  current := h.current
  dialStarts := h.dialStarts
  sup := by
    -- The assertion does not mention the point the supervisor is at.
    cases p <;> exact hp
  sessions s hs := by
    rcases h.sessions s hs with hclosed | hcur | hheld
    · exact .inl hclosed
    · exact .inr (.inl hcur)
    · exact (hholds s hheld).imp_right .inr
  signal := h.signal
  launching hl := by
    obtain ⟨h1, h2, h3, h4, -⟩ := h.launching hl
    exact ⟨h1, h2, h3, h4, hd hl⟩

theorem Sound.go (h : x.Sound) (hm : m < x.generations) (w : Worker) : (x.go m w).Sound := by
  unfold Runtime.go
  split
  · exact h
  · rename_i hopen
    have hcur := h.mgr_of_open hm (Bool.not_eq_true _ ▸ hopen)
    exact { h.setMgr hcur ⟨fun hs => absurd hs hopen, fun hs => absurd hs hopen⟩ with }

theorem Sound.shutdownMgr (h : x.Sound) {g : Option Nat} (hg : g = x.mgr) :
    (x.shutdownMgr g).Sound := by
  subst hg
  cases hm : x.mgr with
  | none => exact h
  | some m => exact h.setMgr hm (keeps_shutdown _)

theorem stopped_shutdownMgr (x : Runtime ι κ) : (x.shutdownMgr x.mgr).Stopped x.mgr := by
  cases hm : x.mgr with
  | none => exact ⟨hm.symm, nofun⟩
  | some m =>
    refine ⟨hm.symm, fun g hg => ?_⟩
    cases hg
    exact congrArg Manager.shutdown ((setMgr_mgrs x m m _).trans (if_pos rfl))

theorem SupAt.closeSession (s : Nat) : ∀ {p : SupPc}, x.SupAt p → (x.closeSession s).SupAt p
  | .waiting, _ | .entered, _ | .exited, _ => trivial
  | .stopping _, hx | .joining _, hx | .closing, hx | .launching, hx | .starting _ _, hx => hx
  | .redialing, hx | .dialing, hx | .failed, hx | .sleeping, hx | .dialled _, hx
  | .abandoning _, hx | .rearming, hx => ⟨hx.1, List.mem_cons_of_mem s hx.2⟩

theorem Sound.closeSession (h : x.Sound) (s : Nat) : (x.closeSession s).Sound :=
  { h with
    sup := h.sup.closeSession s
    sessions := fun t ht => (h.sessions t ht).imp_left (List.mem_cons_of_mem s) }

end Sound

end Runtime

/-! ## Workers -/

section

variable {ι κ : Type} {x y : Runtime ι κ} {cfg : Setup}

/-- A worker changes its own manager, and may raise a signal. -/
theorem WorkerStep.shape {m : Nat} {w : Worker} (h : WorkerStep cfg m w x y) :
    (x.mgrs m).workers w ≠ none ∧ ∃ mgr sig sp,
      y = { x.setMgr m mgr with deathSig := sig, spawned := sp } ∧
      ((x.mgrs m).shutdown = true → mgr.shutdown = true) ∧
      ∀ g, sig = some g → x.deathSig = some g ∨ g = m := by
  cases h with
  | onDead hw h =>
    exact ⟨by rw [h]; nofun, _, _, _, rfl, id, fun g =>
      Runtime.deathSig_onDead (x := x.setWorker m w (some .dying))⟩
  | onPanic h =>
    exact ⟨by rw [h]; nofun, _, _, _, rfl, id, fun g =>
      Runtime.deathSig_onDead (x := x.setWorker m w (some .recovered))⟩
  | recovered h =>
    refine ⟨by rw [h]; nofun,
      { (x.setWorker m w (some .returned)).mgrs m with shutdown := true }, x.deathSig, x.spawned,
      ?_, fun _ => rfl, fun g => .inl⟩
    simp [Runtime.shutdown, Runtime.setWorker, Runtime.setMgr]
  | panic h | returned h | done h => exact ⟨by rw [h]; nofun, _, _, _, rfl, id, fun g => .inl⟩

theorem WorkerStep.sound {m : Nat} {w : Worker} (h : WorkerStep cfg m w x y) (hx : x.Sound) :
    y.Sound := by
  obtain ⟨hw, mgr, sig, sp, rfl, hshut, hsig⟩ := h.shape
  have hm := hx.mgr_of_worker hw
  have hk : Runtime.Keeps (x.mgrs m) mgr := ⟨hshut, fun _ hidle => absurd (hidle w) hw⟩
  refine (hx.setMgr hm hk).raise (hx.dialled_of_mgr hm) fun g hg => ?_
  rcases hsig g hg with hold | rfl
  · exact hx.signal g hold
  · exact hx.current g hm

/-! ## The goroutine of Dial and the supervisor -/

theorem Runtime.Sound.newManager (hx : x.Sound) (hquiet : x.Quiet) :
    ∀ m, x.newManager.mgr ≠ some m → (x.newManager.mgrs m).Idle ∧
      (m < x.newManager.generations → (x.newManager.mgrs m).shutdown = true) := by
  intro m hm
  have hne : m ≠ x.generations := fun he => hm (he ▸ rfl)
  have hmgrs : x.newManager.mgrs m = x.mgrs m :=
    (Runtime.setMgr_mgrs x x.generations m {}).trans (if_neg hne)
  rw [hmgrs]
  by_cases hcur : x.mgr = some m
  · exact ⟨(hquiet m hcur).2, fun _ => (hquiet m hcur).1⟩
  · refine ⟨(hx.retired m hcur).1, fun hlt => (hx.retired m hcur).2 ?_⟩
    have hlt' : m < x.generations + 1 := hlt
    omega

theorem DialStep.sound (h : DialStep cfg x y) (hx : x.Sound) : y.Sound := by
  cases h with
  | publish h =>
    obtain ⟨hm, hg, -, -, hsup⟩ := hx.launching h
    constructor
    case retired => exact hx.newManager (by intro m hm'; rw [hm] at hm'; exact absurd hm' nofun)
    case current =>
      rintro m ⟨⟩
      exact Nat.lt_succ_self _
    case dialStarts =>
      rintro m ws ⟨⟩
      exact Nat.lt_succ_self _
    case sup =>
      have hsup' : x.newManager.sup = x.sup := rfl
      rcases hsup with hsup | hsup <;> rw [hsup', hsup] <;> trivial
    case sessions => exact hx.sessions
    case signal => exact fun g hg => Nat.lt_succ_of_lt (hx.signal g hg)
    case launching => exact nofun
  | @start m w ws h =>
    have hgo := hx.go (hx.dialStarts m _ h) w
    have hgen : (x.go m w).generations = x.generations := by
      unfold Runtime.go
      split <;> rfl
    refine { hgo with dialStarts := ?_, launching := nofun }
    rintro m' ws' ⟨⟩
    exact hgen ▸ hx.dialStarts m _ h
  | finish h => exact { hx with dialStarts := nofun, launching := nofun }

/-- The supervisor gets from a point where it holds no session to another. -/
theorem Runtime.Sound.proceed {p q : SupPc} (hx : x.Sound) (h : x.sup = q) (hq : q.holds = none)
    (hw : q ≠ .waiting) (he : q ≠ .exited) (hp : x.SupAt p) : Runtime.Sound { x with sup := p } := by
  subst h
  exact hx.goto hp (by rw [hq]; nofun) fun hl => absurd hl (hx.dialled_of_sup hw he)

theorem SupStep.sound (h : SupStep cfg x y) (hx : x.Sound) : y.Sound := by
  have hat := hx.sup
  cases h with
  | exit h hc => exact hx.goto trivial (by rw [h]; nofun) fun _ => .inr rfl
  | receive h hsig =>
    have hd : x.dial ≠ .launching := by
      intro hl
      rw [(hx.launching hl).2.2.1] at hsig
      exact absurd hsig nofun
    have hempty : Runtime.Sound { x with deathSig := none } :=
      { hx with signal := nofun, launching := fun hl => absurd hl hd }
    exact { hempty.goto (p := .entered) trivial (by rw [h]; nofun) fun hl => absurd hl hd with }
  | bail h hc => exact hx.proceed h rfl nofun nofun trivial
  | enter h hc => exact hx.proceed h rfl nofun nofun (p := .stopping x.mgr) rfl
  | @shutdown m h =>
    rw [h] at hat
    obtain rfl : m = x.mgr := hat
    have hsup : (x.shutdownMgr x.mgr).sup = x.sup := by cases x.mgr <;> rfl
    exact (hx.shutdownMgr rfl).proceed (hsup.trans h) rfl nofun nofun (x.stopped_shutdownMgr)
  | join h hm =>
    rw [h] at hat
    exact hx.proceed h rfl nofun nofun (p := .closing) (Runtime.Stopped.quiet hat hm)
  | closeOld h =>
    rw [h] at hat
    exact (hx.closeSession x.session).proceed h rfl nofun nofun (p := .redialing)
      ⟨hat, List.mem_cons_self⟩
  | giveUp h hc => rcases h with h | h | h <;> exact hx.proceed h rfl nofun nofun trivial
  | dial h hc =>
    rw [h] at hat
    exact hx.proceed h rfl nofun nofun (p := .dialing) hat
  | dialled h =>
    rw [h] at hat
    have hgo := hx.proceed h rfl nofun nofun (p := .dialled x.sessions) hat
    refine { hgo with sessions := fun s hs => ?_ }
    rcases Nat.lt_succ_iff_lt_or_eq.mp hs with hlt | rfl
    · exact hgo.sessions s hlt
    · exact .inr (.inr rfl)
  | dialFailed h =>
    rw [h] at hat
    exact hx.proceed h rfl nofun nofun (p := .failed) hat
  | sleep h hc =>
    rw [h] at hat
    exact hx.proceed h rfl nofun nofun (p := .sleeping) hat
  | wake h =>
    rw [h] at hat
    exact hx.proceed h rfl nofun nofun (p := .redialing) hat
  | @unbuildable s h =>
    have hd := hx.dialled_of_sup (by rw [h]; nofun) (by rw [h]; nofun)
    rw [h] at hat
    exact hx.goto (p := .abandoning s) hat (by rw [h]; exact fun t ht => .inr ht)
      fun hl => absurd hl hd
  | @abandon s h =>
    have hd := hx.dialled_of_sup (by rw [h]; nofun) (by rw [h]; nofun)
    have hcl := hx.closeSession s
    have hat' := hcl.sup
    have hsup : (x.closeSession s).sup = .abandoning s := h
    rw [hsup] at hat'
    refine hcl.goto (p := .rearming) hat' (fun t ht => .inl ?_) fun hl => absurd hl hd
    rw [hsup] at ht
    cases ht
    exact List.mem_cons_self
  | rearm h =>
    have hd := hx.dialled_of_sup (by rw [h]; nofun) (by rw [h]; nofun)
    cases hm : x.mgr with
    | none => exact hx.proceed h rfl nofun nofun trivial
    | some m =>
      refine (hx.raise hd fun g hg => ?_).proceed (p := .waiting) h rfl nofun nofun trivial
      rcases Runtime.deathSig_onDead hg with hold | rfl
      · exact hx.signal g hold
      · exact hx.current g hm
  | @store s h =>
    have hd := hx.dialled_of_sup (by rw [h]; nofun) (by rw [h]; nofun)
    rw [h] at hat
    constructor
    case retired => exact hx.retired
    case current => exact hx.current
    case dialStarts => exact hx.dialStarts
    case sup => exact hat.1
    case sessions =>
      intro t ht
      rcases hx.sessions t ht with hcl | rfl | hheld
      · exact .inl hcl
      · exact .inl hat.2
      · rw [h] at hheld
        cases hheld
        exact .inr (.inl rfl)
    case signal => exact hx.signal
    case launching => exact fun hl => absurd hl hd
  | publish h =>
    have hd := hx.dialled_of_sup (by rw [h]; nofun) (by rw [h]; nofun)
    rw [h] at hat
    constructor
    case retired => exact hx.newManager hat
    case current =>
      rintro m ⟨⟩
      exact Nat.lt_succ_self _
    case dialStarts => exact fun m ws hm => Nat.lt_succ_of_lt (hx.dialStarts m ws hm)
    case sup => exact (rfl : x.newManager.mgr = some x.generations)
    case sessions =>
      intro s hs
      have hheld := hx.sessions s hs
      rw [h] at hheld
      exact hheld
    case signal => exact fun g hg => Nat.lt_succ_of_lt (hx.signal g hg)
    case launching => exact fun hl => absurd hl hd
  | @start m w ws h =>
    rw [h] at hat
    have hgo := hx.go (hx.current m hat) w
    have hsup : (x.go m w).sup = x.sup ∧ (x.go m w).mgr = x.mgr := by
      unfold Runtime.go
      split <;> exact ⟨rfl, rfl⟩
    exact hgo.proceed (hsup.1.trans h) rfl nofun nofun (p := .starting m ws) (hsup.2.trans hat)
  | finish h => exact hx.proceed h rfl nofun nofun trivial

theorem CloseStep.sound [DecidableEq ι] {i : ι} (h : CloseStep cfg i x y) (hx : x.Sound)
    (hm : ∀ m, x.closers i = .stopping m → m = x.mgr) : y.Sound := by
  cases h with
  | shutdown h => exact { hx.shutdownMgr (hm _ h) with }
  | closeSession h => exact { hx.closeSession x.session with }
  | _ => exact { hx with }

theorem NetStep.sound [DecidableEq κ] {k : κ} (h : NetStep k x y) (hx : x.Sound) : y.Sound := by
  cases h <;> exact { hx with }

end

end GoIpsec.Ipsec
