import GoIpsec.Ipsec.Close

/-!
# One death, one reconnect

The channel of the supervisor holds one signal, and a signal that finds it full is dropped.
This merges the signals of a generation as long as none of them has been received.  One
that is raised between the receipt of the first and the end of the old workers stays in the
channel until the next generation is live.

The generations do not mix as long as the channel is empty whenever the manager of a new
generation is about to be published (`Drained`).
-/

set_option linter.dupNamespace false

namespace GoIpsec.Ipsec

namespace Runtime

variable {ι κ : Type}

/-- The channel is empty when the manager of the next generation is to be published. -/
def Drained (x : Runtime ι κ) : Prop := x.sup = .launching → x.deathSig = none

/-- Each reconnect was triggered by the generation that was live when it started. -/
def OneEach (x : Runtime ι κ) : Prop := ∀ g live, (g, live) ∈ x.reconnects → live = some g

/-- The signal in the channel is of the current generation. -/
structure Tagged (x : Runtime ι κ) : Prop where
  signal : ∀ g, x.deathSig = some g → x.mgr = some g
  past : x.OneEach

theorem tagged_start (cfg : Setup) : (start cfg : Runtime ι κ).Tagged := ⟨nofun, nofun⟩

/-- The current generation raises a signal. -/
theorem Tagged.onDead {x : Runtime ι κ} (h : x.Tagged) (cfg : Setup) {m : Nat}
    (hm : x.mgr = some m) : (x.onDead cfg m).Tagged := by
  refine ⟨fun g hg => ?_, h.past⟩
  rcases deathSig_onDead hg with hold | rfl
  · exact h.signal g hold
  · exact hm

end Runtime

section

variable {ι κ : Type} {x y : Runtime ι κ} {cfg : Setup}

theorem WorkerStep.tagged {m : Nat} {w : Worker} (h : WorkerStep cfg m w x y) (hs : x.Sound)
    (hx : x.Tagged) : y.Tagged := by
  have hm := hs.mgr_of_worker h.shape.1
  cases h with
  | onDead hw h => exact Runtime.Tagged.onDead (x := x.setWorker m w _) { hx with } cfg hm
  | onPanic h => exact Runtime.Tagged.onDead (x := x.setWorker m w _) { hx with } cfg hm
  | _ => exact { hx with }

theorem DialStep.tagged (h : DialStep cfg x y) (hs : x.Sound) (hx : x.Tagged) : y.Tagged := by
  cases h with
  | publish h =>
    obtain ⟨-, -, hsig, -, -⟩ := hs.launching h
    exact ⟨fun g hg => absurd (hsig.symm.trans hg) nofun, hx.past⟩
  | @start m w ws h =>
    obtain ⟨mgrs, n, hgo, -, -⟩ := x.go_shape m w
    rw [hgo]
    exact { hx with }
  | finish h => exact { hx with }

theorem SupStep.tagged (h : SupStep cfg x y) (hd : x.Drained) (hx : x.Tagged) : y.Tagged := by
  cases h with
  | @receive g h hsig =>
    refine ⟨nofun, fun g' live hmem => ?_⟩
    rcases List.mem_cons.mp hmem with heq | hold
    · cases heq
      exact hx.signal g hsig
    · exact hx.past g' live hold
  | @shutdown m h =>
    obtain ⟨mgrs, hshut, -⟩ := x.shutdownMgr_shape m
    rw [hshut]
    exact { hx with }
  | rearm h =>
    cases hm : x.mgr with
    | none => exact { hx with }
    | some m => exact { hx.onDead cfg hm with }
  | publish h => exact ⟨fun g hg => absurd ((hd h).symm.trans hg) nofun, hx.past⟩
  | @start m w ws h =>
    obtain ⟨mgrs, n, hgo, -, -⟩ := x.go_shape m w
    rw [hgo]
    exact { hx with }
  | _ => exact { hx with }

theorem CloseStep.tagged [DecidableEq ι] {i : ι} (h : CloseStep cfg i x y) (hx : x.Tagged) :
    y.Tagged := by
  cases h with
  | @shutdown m h =>
    obtain ⟨mgrs, hshut, -⟩ := x.shutdownMgr_shape m
    rw [hshut]
    exact { hx with }
  | _ => exact { hx with }

theorem NetStep.tagged [DecidableEq κ] {k : κ} (h : NetStep k x y) (hx : x.Tagged) :
    y.Tagged := by
  cases h <;> exact { hx with }

variable [DecidableEq ι] [DecidableEq κ]

/-- The runs in which the channel is empty whenever a reconnect publishes a manager. -/
def DrainedSteps (cfg : Setup) : Runtime ι κ → Runtime ι κ → Prop :=
  Relation.ReflTransGen fun x y => x.Drained ∧ RuntimeStep cfg x y

theorem RuntimeStep.tagged (h : RuntimeStep cfg x y) (hd : x.Drained) (hs : x.Sound)
    (hx : x.Tagged) : y.Tagged := by
  cases h with
  | worker m w h => exact h.tagged hs hx
  | dial h => exact h.tagged hs hx
  | sup h => exact h.tagged hd hx
  | close i h => exact h.tagged hx
  | net k h => exact h.tagged hx

theorem DrainedSteps.tagged (h : DrainedSteps cfg (.start cfg) x) : x.Inv ∧ x.Tagged := by
  induction h with
  | refl => exact ⟨Runtime.inv_start cfg, Runtime.tagged_start cfg⟩
  | tail _ hstep ih => exact ⟨hstep.2.inv ih.1, hstep.2.tagged hstep.1 ih.1.sound ih.2⟩

/-! ## A signal that stays -/

/-- The supervisor starts the workers and waits for the next signal. -/
theorem Runtime.launched (cfg : Setup) {m : Nat} : ∀ (ws : List Worker) {x : Runtime ι κ},
    x.sup = .starting m ws → ∃ mgrs n,
      RuntimeSteps cfg x { x with sup := .waiting, mgrs := mgrs, started := n }
  | [], x, h => ⟨x.mgrs, x.started, .single (.sup (.finish h))⟩
  | w :: ws, x, h => by
    obtain ⟨mgrs, n, hgo, -, -⟩ := x.go_shape m w
    obtain ⟨mgrs', n', hrun⟩ := launched cfg ws (x := { x.go m w with sup := .starting m ws }) rfl
    refine ⟨mgrs', n', ?_⟩
    rw [hgo] at hrun
    exact .head (hgo ▸ .sup (.start h)) hrun

/-- A signal that is in the channel when the manager of the next generation is published is
of an older generation, and a run goes on in which it stops the new one. -/
theorem Runtime.Sound.torn_down (hx : x.Sound) (hd : ¬ x.Drained) (hc : x.cancelled = false) :
    ∃ y g, RuntimeSteps cfg x y ∧ (g, y.mgr) ∈ y.reconnects ∧ y.mgr ≠ some g ∧
      y.sup = .stopping y.mgr := by
  obtain ⟨hsup, hsig⟩ := Classical.not_imp.mp hd
  obtain ⟨g, hg⟩ := Option.ne_none_iff_exists'.mp hsig
  obtain ⟨mgrs, n, hrun⟩ := Runtime.launched cfg cfg.workers
    (x := { x.newManager with sup := .starting x.generations cfg.workers }) rfl
  have hpub : RuntimeStep cfg x { x.newManager with sup := .starting x.generations cfg.workers } :=
    .sup (.publish hsup)
  refine ⟨_, g, ((hrun.head hpub).tail (.sup (.receive rfl hg))).tail (.sup (.enter rfl hc)),
    List.mem_cons_self, ?_, rfl⟩
  rintro ⟨⟩
  exact Nat.lt_irrefl _ (hx.signal _ hg)

/-- In every run in which the channel is empty whenever the manager of a new generation is
published, each reconnect was triggered by the generation that was live when it started.
Otherwise, unless the client is being closed, a run goes on in which a signal of an older
generation stops the new one. -/
theorem one_death_one_reconnect (cfg : Setup) :
    (∀ x : Runtime ι κ, DrainedSteps cfg (.start cfg) x → x.OneEach) ∧
      ∀ x : Runtime ι κ, RuntimeSteps cfg (.start cfg) x → x.cancelled = false → ¬ x.Drained →
        ∃ y, RuntimeSteps cfg x y ∧ ¬ y.OneEach := by
  refine ⟨fun x hx => hx.tagged.2.past, fun x hx hc hd => ?_⟩
  obtain ⟨y, g, hrun, hmem, hne, -⟩ := hx.inv.sound.torn_down hd hc
  exact ⟨y, hrun, fun hone => hne (hone g _ hmem)⟩

/-- The driver declares the peer dead, and the demultiplexer panics after the supervisor has
received the signal.  The second signal is received when the workers of the next generation
run, and stops them. -/
theorem steps_stale : ∃ x y : Runtime Unit Unit,
    RuntimeSteps sampleSetup (.start sampleSetup) x ∧ x.cancelled = false ∧ ¬ x.Drained ∧
    RuntimeSteps sampleSetup x y ∧ (0, some 1) ∈ y.reconnects ∧ y.mgr = some 1 ∧
    (y.mgrs 1).shutdown = true ∧ (y.mgrs 1).workers .rxDemux = some .running ∧
    (y.mgrs 1).workers .ikeDriver = some .running := by
  have h₁ : RuntimeSteps sampleSetup (.start sampleSetup : Runtime Unit Unit) _ :=
    ((((Relation.ReflTransGen.refl.tail (.dial (.publish rfl))).tail (.dial (.start rfl))).tail
      (.dial (.start rfl))).tail (.dial (.finish rfl)))
  have h₂ := (((((h₁.tail (.worker 0 .ikeDriver (.onDead rfl rfl))).tail
    (.sup (.receive rfl rfl))).tail (.worker 0 .rxDemux (.panic rfl (.inl rfl)))).tail
    (.worker 0 .rxDemux (.onPanic rfl))).tail (.worker 0 .rxDemux (.recovered rfl))).tail
    (.worker 0 .rxDemux (.done rfl))
  have h₃ := (((((h₂.tail (.sup (.enter rfl rfl))).tail (.sup (.shutdown rfl))).tail
    (.worker 0 .ikeDriver (.returned rfl (.inr rfl)))).tail (.worker 0 .ikeDriver (.done rfl))).tail
    (.sup (.join rfl (by rintro g ⟨⟩ w; cases w <;> rfl)))).tail (.sup (.closeOld rfl))
  have h₄ := ((h₃.tail (.sup (.dial rfl rfl))).tail (.sup (.dialled rfl))).tail (.sup (.store rfl))
  exact ⟨_, _, h₄, rfl, fun hd => absurd (hd rfl) nofun,
    ((((((Relation.ReflTransGen.refl.tail (.sup (.publish rfl))).tail (.sup (.start rfl))).tail
      (.sup (.start rfl))).tail (.sup (.finish rfl))).tail (.sup (.receive rfl rfl))).tail
      (.sup (.enter rfl rfl))).tail (.sup (.shutdown rfl)), List.mem_cons_self, rfl, rfl, rfl, rfl⟩

theorem drained_sample : ∃ x : Runtime Unit Unit,
    DrainedSteps sampleSetup (.start sampleSetup) x ∧ (0, some 0) ∈ x.reconnects :=
  ⟨_, (((((Relation.ReflTransGen.refl.tail ⟨nofun, .dial (.publish rfl)⟩).tail
    ⟨nofun, .dial (.start rfl)⟩).tail ⟨nofun, .dial (.start rfl)⟩).tail
    ⟨nofun, .dial (.finish rfl)⟩).tail ⟨nofun, .worker 0 .ikeDriver (.onDead rfl rfl)⟩).tail
    ⟨nofun, .sup (.receive rfl rfl)⟩, List.mem_cons_self⟩

theorem one_death_one_reconnect_sample :
    (∃ x : Runtime Unit Unit, DrainedSteps sampleSetup (.start sampleSetup) x ∧
      (0, some 0) ∈ x.reconnects ∧ x.OneEach) ∧
    ∃ x y : Runtime Unit Unit, RuntimeSteps sampleSetup (.start sampleSetup) x ∧
      x.cancelled = false ∧ ¬ x.Drained ∧ RuntimeSteps sampleSetup x y ∧ ¬ y.OneEach := by
  constructor
  · obtain ⟨x, hx, hmem⟩ := drained_sample
    exact ⟨x, hx, hmem, (one_death_one_reconnect sampleSetup).1 x hx⟩
  · obtain ⟨x, -, hx, hc, hd, -⟩ := steps_stale
    obtain ⟨y, hxy, hy⟩ := (one_death_one_reconnect sampleSetup).2 x hx hc hd
    exact ⟨x, y, hx, hc, hd, hxy, hy⟩

/-- The second signal of generation 0 stops generation 1, whose workers all run. -/
theorem successor_torn_down : ∃ x : Runtime Unit Unit,
    RuntimeSteps sampleSetup (.start sampleSetup) x ∧ (0, some 1) ∈ x.reconnects ∧
      x.mgr = some 1 ∧ (x.mgrs 1).shutdown = true ∧ (x.mgrs 1).workers .rxDemux = some .running ∧
      (x.mgrs 1).workers .ikeDriver = some .running ∧ ¬ x.OneEach := by
  obtain ⟨x, y, hx, -, -, hy, hmem, hmgr, hshut, hrx, hdrv⟩ := steps_stale
  exact ⟨y, hx.trans hy, hmem, hmgr, hshut, hrx, hdrv,
    fun hone => absurd (hone 0 (some 1) hmem) (by decide)⟩

end

end GoIpsec.Ipsec
