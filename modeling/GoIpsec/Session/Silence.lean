import GoIpsec.Session.Liveness

/-!
# A peer that has fallen silent

What the control loop makes of a peer that is not heard of any more.

If no rekey falls due, the peer is probed and declared dead by a time that can be computed
from the settings.  If one does, what happens depends on how long a request is repeated: the
retry interval of a rekey begins when the rekey starts, so where the repetitions last as long
as the interval, the rekey is due again when it is given up, and the peer is never probed.
-/

set_option linter.dupNamespace false

namespace GoIpsec.Session

open Golang Ikemsg Ikesa

/-! ## Runs in which nothing is heard -/

section

variable {c : Crypto} {env : Env} {d : Drive} {s s' : Session} {p : PendingExchange} {now : Time}

/-- A tick that comes within `gap` of the last one, in a turn that takes no longer.  The host was not
suspended in between: a tick that notices a gap in the wall clock puts the exchange that waits on a
fast schedule, or probes at once.  And the random source works, so that a request can be made. -/
structure Env.OnTime (env : Env) (gap : Nat) (last : Time) (s : Session) : Prop where
  later : last ≤ env.clock .tick
  soon : env.clock .tick ≤ last + gap
  request : env.clock .tick ≤ env.clock .request
  prompt : env.clock .request ≤ env.clock .tick + gap
  awake : env.Awake s
  random : env.Random

/-- The runs from a state and a time on in which no message of the peer comes in, by the
state they have reached, the time of the last tick and whether the loop has ended.  What
does come in cannot be decoded. -/
inductive Unheard (c : Crypto) (gap : Nat) (P : Env → Prop) (d₀ : Drive) (t₀ : Time) :
    Drive → Time → Bool → Prop
  | start : Unheard c gap P d₀ t₀ d₀ t₀ false
  | noise {d d' : Drive} {t : Time} {fin : Bool} (env : Env) (raw : Bytes)
      (h : Unheard c gap P d₀ t₀ d t false) (hdeaf : ¬ Turn.Hears c { env, d, input := .datagram raw })
      (hstep : driverStep c env (.datagram raw) d = (.ok fin, d')) : Unheard c gap P d₀ t₀ d' t fin
  | tick {d d' : Drive} {t : Time} {fin : Bool} (env : Env) (h : Unheard c gap P d₀ t₀ d t false)
      (honTime : env.OnTime gap t d.s) (hP : P env)
      (hstep : driverStep c env .tick d = (.ok fin, d')) :
      Unheard c gap P d₀ t₀ d' (env.clock .tick) fin

theorem driverStep_noise {raw : Bytes} {d' : Drive} {fin : Bool}
    (hdeaf : ¬ Turn.Hears c { env, d, input := .datagram raw })
    (hstep : driverStep c env (.datagram raw) d = (.ok fin, d')) : fin = false ∧ d' = d := by
  rw [driverStep, handleInbound, run_session_bind] at hstep
  cases hdecode : d.s.decodeIKE c env raw with
  | ok res => exact absurd ⟨raw, res, rfl, hdecode⟩ hdeaf
  | error e =>
      rw [hdecode] at hstep
      cases e with
      | err text =>
          cases hstep
          exact ⟨rfl, rfl⟩
      | panic => cases hstep
      | diverge => cases hstep

/-! ## Declared dead in time -/

/-- By when the exchange is over, with the last tick at `last`. -/
def PendingExchange.endsBy (p : PendingExchange) (s : Session) (gap last : Nat) : Nat :=
  p.attempt.latest (s.delay p.fast) (s.tries p.fast) gap last

/-- By when nothing is outstanding. -/
def Session.freeBy (s : Session) (gap t : Nat) : Nat := s.pending.elim t fun p => p.endsBy s gap t

/-- By when the peer has been silent for long enough to be probed. -/
def Session.idleBy (s : Session) (gap t heard : Nat) : Nat :=
  max (s.freeBy gap t) (heard + s.dpdInterval.toNat)

/-- By when it is declared dead. -/
def Session.deadBy (s : Session) (gap t heard : Nat) : Nat :=
  s.idleBy gap t heard + s.schedule + (s.tries false + 2) * gap

/-- No rekey falls due up to a time, and no replacement is owed. -/
structure Session.Calm (s : Session) (bound : Nat) : Prop where
  fastDPDDue : s.fastDPDDue = false
  childReestablish : s.childReestablish = false
  pending : ∀ p, s.pending = some p → p.kind.reestablishes = false
  ike : s.cfg.rekeyLifetime > 0 → s.nextIKERekey.isZero = false → bound ≤ s.nextIKERekey
  child : s.cfg.rekeyLifetime > 0 → s.nextChildRekey.isZero = false → bound ≤ s.nextChildRekey

/-- The data plane has heard nothing since `heard` and has not sent too much. -/
structure Env.Deaf (heard : Nat) (s : Session) (env : Env) : Prop where
  data : env.lastDataInbound ≤ heard
  volume : env.childSAVolume < s.rekeyMaxPackets

/-- The session on its way to the verdict: what is outstanding ends in time, and if nothing
is, the peer is not yet to be probed. -/
structure Dying (s₀ : Session) (gap t₀ heard : Nat) (s : Session) (t : Nat) : Prop where
  kept : Undisturbed s₀ s
  ike : s.nextIKERekey = s₀.nextIKERekey
  child : s.nextChildRekey = s₀.nextChildRekey
  free : s.pending = none → t ≤ s₀.idleBy gap t₀ heard
  busy : ∀ p, s.pending = some p → p.kind.reestablishes = false ∧
    p.endsBy s₀ gap t ≤ if p.kind = .dpd then s₀.deadBy gap t₀ heard else s₀.idleBy gap t₀ heard

section

variable {s₀ : Session} {gap t₀ heard t : Nat}

theorem idleBy_le_deadBy (s : Session) (gap t heard : Nat) :
    s.idleBy gap t heard + gap ≤ s.deadBy gap t heard := by
  rw [Session.deadBy, Nat.add_mul]
  omega

theorem Dying.start {bound : Nat} (h : s.Calm bound) : Dying s gap t₀ heard s t₀ := by
  refine ⟨.refl s, rfl, rfl, fun hnone => ?_, fun p hp => ⟨h.pending p hp, ?_⟩⟩
  · rw [Session.idleBy, Session.freeBy, hnone]
    exact Nat.le_max_left _ _
  · have hfree : p.endsBy s gap t₀ ≤ s.idleBy gap t₀ heard := by
      rw [Session.idleBy, Session.freeBy, hp]
      exact Nat.le_max_left _ _
    have hdead := idleBy_le_deadBy s gap t₀ heard
    split
    · omega
    · exact hfree

/-- A peer that is not probed with nothing outstanding was heard of lately. -/
theorem le_of_not_idle (hinbound : s.lastInbound ≤ heard) (hdata : env.lastDataInbound ≤ heard)
    (hidle : ¬ s.idle env now > s.dpdInterval) : now ≤ heard + s.dpdInterval.toNat := by
  have hle (x : Nat) (hx : x ≤ heard) : Time.sub now heard ≤ Time.sub now x :=
    Int.sub_le_sub_left (Int.ofNat_le.mpr hx) _
  have hwhole : Time.sub now heard ≤ s.idle env now := by
    unfold Session.idle
    dsimp only
    split
    · split
      · exact hle _ hdata
      · exact hle _ hinbound
    · exact hle _ hinbound
  have hshort : (now : Int) - heard ≤ s.dpdInterval := hwhole.trans (not_lt.mp hidle)
  refine Int.ofNat_le.mp ?_
  rw [Int.natCast_add]
  exact (sub_le_iff_le_add'.mp hshort).trans (Int.add_le_add_left (Int.self_le_toNat _) _)

/-- No rekey is due while the verdict is still to come. -/
theorem Dying.not_due (hcalm : s₀.Calm (s₀.deadBy gap t₀ heard)) (h : Dying s₀ gap t₀ heard s t)
    (hnow : now ≤ s₀.deadBy gap t₀ heard) : ¬ s.ikeDue now ∧ ¬ s.childDue now := by
  constructor
  · rintro ⟨-, hlife, hzero, hafter⟩
    rw [h.kept.cfg] at hlife
    rw [h.ike] at hzero hafter
    exact absurd (of_decide_eq_true hafter) (Nat.not_lt.mpr (hnow.trans (hcalm.ike hlife hzero)))
  · rintro ⟨-, hlife, -, hzero, hafter⟩
    rw [h.kept.cfg] at hlife
    rw [h.child] at hzero hafter
    exact absurd (of_decide_eq_true hafter) (Nat.not_lt.mpr (hnow.trans (hcalm.child hlife hzero)))

/-- Looking after the superseded IKE SA does not bear on the verdict. -/
theorem Dying.attended (h : Dying s₀ gap t₀ heard s t) (hs : Attended env s s') :
    Dying s₀ gap t₀ heard s' t := by
  have hkept := h.kept.trans hs.undisturbed
  obtain ⟨old, peer, del, rfl⟩ := hs
  exact ⟨hkept, h.ike, h.child, h.free, h.busy⟩

/-- The probe that is sent in time runs out in time. -/
theorem endsBy_probe (hfree : t ≤ s₀.idleBy gap t₀ heard) (hsoon : env.clock .tick ≤ t + gap)
    (hprompt : env.clock .request ≤ env.clock .tick + gap) (hfast : p.fast = false)
    (hp : p.attempt = { sent := 1, due := env.clock .request + s₀.retransmitBase.toNat }) :
    p.endsBy s₀ gap (env.clock .tick) ≤ s₀.deadBy gap t₀ heard := by
  have hsched := schedule_eq s₀
  have hpos : 0 < s₀.tries false := Int.pos_iff_toNat_pos.mp (retransmitTries_pos s₀)
  rw [PendingExchange.endsBy, hp, hfast, Session.deadBy, Attempt.latest, Nat.sub_add_cancel hpos,
    Nat.add_mul]
  generalize env.clock .tick = now at hsoon hprompt ⊢
  generalize env.clock .request = asked at hprompt ⊢
  dsimp only [Time] at now asked hsoon hprompt ⊢
  omega

theorem Dying.tick {fin : Bool} {d' : Drive} (hcalm : s₀.Calm (s₀.deadBy gap t₀ heard))
    (hheard : s₀.lastInbound ≤ heard) (h : Dying s₀ gap t₀ heard d.s t) (hon : env.OnTime gap t d.s)
    (hdeaf : env.Deaf heard s₀) (htick : Ticked env d fin d') :
    (fin = true ∧ d'.log.head? = some .dead) ∨
      (fin = false ∧ Dying s₀ gap t₀ heard d'.s (env.clock .tick)) := by
  cases htick with
  | free d' s₁ hnone hattend hstart =>
      have h₁ := h.attended hattend
      have hfree : t ≤ s₀.idleBy gap t₀ heard := h.free hnone
      have hnow : env.clock .tick ≤ s₀.deadBy gap t₀ heard :=
        hon.soon.trans ((Nat.add_le_add_right hfree gap).trans (idleBy_le_deadBy s₀ gap t₀ heard))
      obtain ⟨hike, hchild⟩ := h₁.not_due hcalm hnow
      have hkept := h₁.kept.trans hstart.undisturbed
      refine .inr ⟨rfl, ?_⟩
      cases hstart with
      | volume hdue hout =>
          have hmax : s₁.rekeyMaxPackets = s₀.rekeyMaxPackets := by
            rw [Session.rekeyMaxPackets, h₁.kept.cfg]
            rfl
          exact absurd hdeaf.volume (UInt32.not_lt.mpr (hmax ▸ hdue.2.2.2))
      | ike hdue hout => exact absurd hdue hike
      | child hdue hout => exact absurd hdue hchild
      | probe _ _ hout =>
          have hbase : s₁.retransmitBase = s₀.retransmitBase := by
            rw [Session.retransmitBase, h₁.kept.cfg]
            rfl
          obtain ⟨p, hp, hkind, hfast, hattempt⟩ := hout.fresh
          rw [hbase] at hattempt
          obtain ⟨n, n', p', hs', -⟩ := hout
          refine ⟨hkept, ?_, ?_, fun hnone' => ?_, fun q hq => ?_⟩
          · rw [hs']
            exact h₁.ike
          · rw [hs']
            exact h₁.child
          · rw [hp] at hnone'
            cases hnone'
          · cases hp.symm.trans hq
            refine ⟨by rw [hkind]; rfl, ?_⟩
            rw [if_pos hkind]
            exact endsBy_probe hfree hon.soon hon.prompt hfast hattempt
      | rest _ _ hidle =>
          refine ⟨h₁.kept, h₁.ike, h₁.child, fun _ => ?_, fun q hq => ?_⟩
          · have hlast : d'.s.lastInbound ≤ heard := h₁.kept.lastInbound ▸ hheard
            have hinterval : d'.s.dpdInterval = s₀.dpdInterval := by
              rw [Session.dpdInterval, h₁.kept.cfg]
              rfl
            exact (hinterval ▸ le_of_not_idle hlast hdeaf.data hidle).trans (Nat.le_max_right _ _)
          · obtain ⟨old, peer, del, hs₁⟩ := hattend
            rw [hs₁] at hq
            cases hnone.symm.trans hq
  | busy d' d₁ fin p hp hattend hpoll =>
      have h₁ := h.attended hattend
      obtain ⟨hre, hend⟩ := h.busy p hp
      have hdelay : d₁.s.delay = s₀.delay := delay_congr h₁.kept.cfg
      have htries : d₁.s.tries = s₀.tries := tries_congr h₁.kept.cfg
      cases hpoll with
      | dead d' hpoll hprobe hlog => exact .inl ⟨rfl, by rw [hlog]; rfl⟩
      | kept a d' hpoll hs =>
          rw [hdelay, htries] at hpoll
          refine .inr ⟨rfl, ?_⟩
          rw [hs]
          refine ⟨h₁.kept.trans ⟨rfl, rfl, rfl, rfl, rfl,
            fun hable => hable.congr hable.ike rfl rfl rfl rfl rfl⟩, h₁.ike, h₁.child, nofun,
            fun q hq => ?_⟩
          cases hq
          exact ⟨hre, (Attempt.latest_le_of_poll hon.soon hpoll).trans hend⟩
      | dropped d' hpoll hprobe hs =>
          rw [hdelay, htries] at hpoll
          refine .inr ⟨rfl, ?_⟩
          rw [hs hre]
          rw [if_neg hprobe] at hend
          exact ⟨h₁.kept.trans ⟨rfl, rfl, rfl, rfl, rfl,
            fun hable => hable.congr hable.ike rfl rfl rfl rfl rfl⟩, h₁.ike, h₁.child,
            fun _ => (Attempt.le_latest_of_poll hon.soon hpoll).trans hend, nofun⟩

/-- When the rekey of the IKE SA, or that of the Child SA, is due. -/
def Session.rekeyTimer (s : Session) (ike : Bool) : Nat :=
  if ike then s.nextIKERekey else s.nextChildRekey

/-- A rekey is due, or will be when the outstanding one is given up. -/
structure Starving (s₀ : Session) (ike : Bool) (s : Session) (t : Nat) : Prop where
  kept : Undisturbed s₀ s
  armed : s.rekeyTimer ike ≠ 0
  free : s.pending = none → s.rekeyTimer ike < t
  busy : ∀ p, s.pending = some p → p.kind.plainRekey ∧ p.fast = false ∧
    s.rekeyTimer ike ≤ p.attempt.earliest (s₀.delay false) (s₀.tries false)

theorem Starving.start (hidle : s.pending = none) (hdue : s.ikeDue t₀ ∨ s.childDue t₀) :
    ∃ ike, Starving s ike s t₀ := by
  have hbusy {P : PendingExchange → Prop} : ∀ p, s.pending = some p → P p := by
    intro p hp
    cases hidle.symm.trans hp
  rcases hdue with ⟨-, -, hzero, hafter⟩ | ⟨-, -, -, hzero, hafter⟩
  · exact ⟨true, .refl s, beq_eq_false_iff_ne.mp hzero, fun _ => of_decide_eq_true hafter, hbusy⟩
  · exact ⟨false, .refl s, beq_eq_false_iff_ne.mp hzero, fun _ => of_decide_eq_true hafter, hbusy⟩

/-- A rekey that is due stays due. -/
theorem Starving.due {ike : Bool} (h : Starving s₀ ike s t) (hdp : s₀.dataPlane = true)
    (hlife : s₀.cfg.rekeyLifetime > 0) (hre : s₀.childReestablish = false) (hnone : s.pending = none)
    (hlater : t ≤ now) : s.ikeDue now ∨ s.childDue now := by
  have hdp' : s.dataPlane = true := h.kept.dataPlane.trans hdp
  have hlife' : s.cfg.rekeyLifetime > 0 := h.kept.cfg ▸ hlife
  have hzero := beq_eq_false_iff_ne.mpr h.armed
  have hafter : decide (s.rekeyTimer ike < now) = true :=
    decide_eq_true (Nat.lt_of_lt_of_le (h.free hnone) hlater)
  cases ike with
  | true => exact .inl ⟨hdp', hlife', hzero, hafter⟩
  | false => exact .inr ⟨hdp', hlife', h.kept.childReestablish.trans hre, hzero, hafter⟩

/-- What was just sent is not given up before a timer that was set at most a retry interval
ahead. -/
theorem le_earliest_of_fresh {s₁ : Session} {timer : Nat} (hlong : rekeyRetryInterval ≤ s₀.schedule)
    (hcfg : s₁.cfg = s₀.cfg) (hreq : env.clock .tick ≤ env.clock .request)
    (htimer : timer ≤ env.clock .tick + rekeyRetryInterval.toNat)
    (hp : p.attempt = { sent := 1, due := env.clock .request + s₁.retransmitBase.toNat }) :
    timer ≤ p.attempt.earliest (s₀.delay false) (s₀.tries false) := by
  have hbase : s₁.retransmitBase = s₀.retransmitBase := by
    rw [Session.retransmitBase, hcfg]
    rfl
  have hlong' : rekeyRetryInterval.toNat ≤ s₀.schedule := Int.toNat_le.mpr hlong
  rw [hp, Attempt.earliest, hbase, Nat.add_assoc, schedule_eq]
  exact htimer.trans (Nat.add_le_add hreq hlong')

theorem add_rekeyRetryInterval (t : Time) : t.add rekeyRetryInterval = t + rekeyRetryInterval.toNat :=
  Time.add_natCast t 60000000000

theorem add_rekeyRetryInterval_ne_zero (t : Time) : t.add rekeyRetryInterval ≠ 0 := by
  rw [add_rekeyRetryInterval]
  exact Nat.ne_of_gt (Nat.lt_of_lt_of_le (by decide) (Nat.le_add_left _ _))

/-- A rekey was started while a timer was at most a retry interval ahead. -/
theorem GoesOut.starves {ike : Bool} {s₁ : Session} {base : Duration}
    (hout : GoesOut env ExchangeKind.plainRekey base false s₁ s') (hbase : base = s₁.retransmitBase)
    (hlong : rekeyRetryInterval ≤ s₀.schedule) (hkept : Undisturbed s₀ s') (hcfg : s₁.cfg = s₀.cfg)
    (hreq : env.clock .tick ≤ env.clock .request)
    (htimer : s₁.rekeyTimer ike ≤ env.clock .tick + rekeyRetryInterval.toNat)
    (harmed : s₁.rekeyTimer ike ≠ 0) : Starving s₀ ike s' (env.clock .tick) := by
  subst hbase
  obtain ⟨p, hp, hkind, hfast, hattempt⟩ := hout.fresh
  have hkeeps : s'.rekeyTimer ike = s₁.rekeyTimer ike := by
    obtain ⟨n, n', q, hs', -⟩ := hout
    rw [hs']
    rfl
  refine ⟨hkept, hkeeps ▸ harmed, fun hnone => ?_, fun q hq => ?_⟩
  · cases hp.symm.trans hnone
  · cases hp.symm.trans hq
    exact ⟨hkind, hfast, hkeeps ▸ le_earliest_of_fresh hlong hcfg hreq htimer hattempt⟩

theorem Starving.tick {ike fin : Bool} {d' : Drive} (hlong : rekeyRetryInterval ≤ s₀.schedule)
    (hdp : s₀.dataPlane = true) (hlife : s₀.cfg.rekeyLifetime > 0) (hre : s₀.childReestablish = false)
    (h : Starving s₀ ike d.s t) (hon : env.OnTime gap t d.s) (htick : Ticked env d fin d') :
    fin = false ∧ ∃ ike, Starving s₀ ike d'.s (env.clock .tick) := by
  cases htick with
  | free d' s₁ hnone hattend hstart =>
      refine ⟨rfl, ?_⟩
      have h₁ : Starving s₀ ike s₁ t := by
        have hkept := h.kept.trans hattend.undisturbed
        obtain ⟨old, peer, del, rfl⟩ := hattend
        exact ⟨hkept, h.armed, h.free, h.busy⟩
      have hnone₁ : s₁.pending = none := by
        obtain ⟨old, peer, del, rfl⟩ := hattend
        exact hnone
      have hkept := h₁.kept.trans hstart.undisturbed
      cases hstart with
      | volume hdue hout =>
          refine ⟨ike, hout.starves rfl hlong hkept h₁.kept.cfg hon.request ?_ h₁.armed⟩
          exact (Nat.le_of_lt (h₁.free hnone₁)).trans (hon.later.trans (Nat.le_add_right _ _))
      | ike hdue hout =>
          exact ⟨true, hout.starves rfl hlong hkept h₁.kept.cfg hon.request
            (Nat.le_of_eq (add_rekeyRetryInterval _)) (add_rekeyRetryInterval_ne_zero _)⟩
      | child hdue hout =>
          exact ⟨false, hout.starves rfl hlong hkept h₁.kept.cfg hon.request
            (Nat.le_of_eq (add_rekeyRetryInterval _)) (add_rekeyRetryInterval_ne_zero _)⟩
      | probe hike hchild hout =>
          exact ((h₁.due hdp hlife hre hnone₁ hon.later).elim hike hchild).elim
      | rest hike hchild hidle =>
          exact ((h₁.due hdp hlife hre hnone₁ hon.later).elim hike hchild).elim
  | busy d' d₁ fin p hp hattend hpoll =>
      obtain ⟨⟨hrekey, hplain⟩, hfast, htimer⟩ := h.busy p hp
      have hkept := h.kept.trans hattend.undisturbed
      have htimer₁ : d₁.s.rekeyTimer ike = d.s.rekeyTimer ike := by
        obtain ⟨old, peer, del, hs₁⟩ := hattend
        rw [hs₁]
        rfl
      have hdelay : d₁.s.delay = s₀.delay := delay_congr hkept.cfg
      have htries : d₁.s.tries = s₀.tries := tries_congr hkept.cfg
      have hpending {q : Option PendingExchange} : Undisturbed s₀ { d₁.s with pending := q } :=
        hkept.trans ⟨rfl, rfl, rfl, rfl, rfl, fun hable => hable.congr hable.ike rfl rfl rfl rfl rfl⟩
      cases hpoll with
      | dead d' hpoll hprobe hlog =>
          rw [hprobe] at hrekey
          cases hrekey
      | kept a d' hpoll hs =>
          rw [hdelay, htries, hfast] at hpoll
          refine ⟨rfl, ike, ?_⟩
          rw [hs]
          refine ⟨hpending, htimer₁ ▸ h.armed, nofun, fun q hq => ?_⟩
          cases hq
          refine ⟨⟨hrekey, hplain⟩, hfast, ?_⟩
          exact htimer₁ ▸ htimer.trans (Attempt.earliest_le_of_poll hpoll)
      | dropped d' hpoll hprobe hs =>
          rw [hdelay, htries, hfast] at hpoll
          refine ⟨rfl, ike, ?_⟩
          rw [hs hplain]
          refine ⟨hpending, htimer₁ ▸ h.armed, fun _ => ?_, nofun⟩
          exact htimer₁ ▸ Nat.lt_of_le_of_lt htimer (Attempt.earliest_lt_of_poll hpoll)

/-- If a rekey is due when the peer has fallen silent, and a request is repeated for as long
as a rekey waits to be tried again, the loop goes on forever: the rekey is started over and
over, the peer is never probed and never declared dead. -/
theorem rekey_starves_probe {d₀ : Drive} {P : Env → Prop} {fin : Bool} (hable : d₀.s.Able)
    (hdp : d₀.s.dataPlane = true) (hlife : d₀.s.cfg.rekeyLifetime > 0)
    (hlong : rekeyRetryInterval ≤ d₀.s.schedule) (hfast : d₀.s.fastDPDDue = false)
    (hre : d₀.s.childReestablish = false) (hidle : d₀.s.pending = none)
    (hdue : d₀.s.ikeDue t₀ ∨ d₀.s.childDue t₀) (h : Unheard c gap P d₀ t₀ d t fin) :
    fin = false ∧ (∀ p, d.s.pending = some p → p.kind.isRekey = true) ∧
      ∀ env, env.OnTime gap t d.s → ∃ d', driverStep c env .tick d = (.ok false, d') := by
  have hrun : fin = false ∧ ∃ ike, Starving d₀.s ike d.s t := by
    induction h with
    | start => exact ⟨rfl, Starving.start hidle hdue⟩
    | noise env raw h hdeaf hstep ih =>
        obtain ⟨rfl, rfl⟩ := driverStep_noise hdeaf hstep
        exact ih
    | tick env h hon hP hstep ih =>
        obtain ⟨-, ike, hstarving⟩ := ih
        obtain ⟨fin', d', hstep', htick⟩ := ticked_driverStep (c := c) (hstarving.kept.able hable)
          hon.awake hon.random (hstarving.kept.fastDPDDue.trans hfast)
          (hstarving.kept.childReestablish.trans hre)
        cases hstep.symm.trans hstep'
        exact hstarving.tick hlong hdp hlife hre hon htick
  obtain ⟨hfin, ike, hstarving⟩ := hrun
  refine ⟨hfin, fun p hp => (hstarving.busy p hp).1.1, fun env hon => ?_⟩
  obtain ⟨fin', d', hstep, htick⟩ := ticked_driverStep (c := c) (hstarving.kept.able hable) hon.awake
    hon.random (hstarving.kept.fastDPDDue.trans hfast) (hstarving.kept.childReestablish.trans hre)
  obtain ⟨rfl, -⟩ := hstarving.tick hlong hdp hlife hre hon htick
  exact ⟨d', hstep⟩

end

end

/-! ## Two sessions whose peers are not heard of -/

theorem random_sampleEnv (t : Time) : (sampleEnv t).Random := fun _ => rfl

theorem onTime_sampleEnv {gap t : Nat} {last : Time} {s : Session} (hlater : last ≤ t)
    (hsoon : t ≤ last + gap) (hawake : (sampleEnv t).Awake s) : (sampleEnv t).OnTime gap last s :=
  ⟨hlater, hsoon, le_refl t, Nat.le_add_right t gap, hawake, random_sampleEnv t⟩

theorem Unheard.ticking {gap : Nat} {P : Env → Prop} {d₀ d : Drive} {t₀ last t : Time} {fin : Bool}
    (h : Unheard Crypto.sample gap P d₀ t₀ d last false) (hP : P (sampleEnv t)) (hlater : last ≤ t)
    (hsoon : t ≤ last + gap) (hawake : (sampleEnv t).Awake d.s)
    (hok : (driverStep Crypto.sample (sampleEnv t) .tick d).1 = .ok fin) :
    Unheard Crypto.sample gap P d₀ t₀ (Session.ticking t d) t fin :=
  .tick (sampleEnv t) h (onTime_sampleEnv hlater hsoon hawake) hP (Prod.ext hok rfl)

/-- The sample session with other settings and timers that has not heard of its peer since
the time 1. -/
def sampleLost (cfg : Config) (nextIKERekey : Time) : Drive :=
  { s := { sampleSession .initiator with cfg, nextIKERekey, lastInbound := 1 } }

theorem able_sampleLost {cfg : Config} (nextIKERekey : Time)
    (hesp : (enabledSuites cfg.espSuites espSuites).length ≤ 255)
    (hike : (enabledSuites cfg.ikeSuites ikeSuites).length ≤ 255) :
    (sampleLost cfg nextIKERekey).s.Able := by
  have hsa : (sampleLost cfg nextIKERekey).s.ikeSA = sampleSA .initiator := by
    simp only [sampleLost, sampleSession]
  exact ⟨hsa ▸ derivedTogether_sampleSA.mirror.left, rfl, hesp, hike, rfl, fun hpfs => by cases hpfs⟩

/-- The settings of a client: with them a request is repeated for just as long as a rekey
waits to be tried again. -/
def sampleDefault : Config :=
  { dpdTimeout := 30 * second, rekeyLifetime := 60 * minute, ikeRekeyLifetime := 240 * minute
    retransmitBase := 2 * second, retransmitMax := 30 * second, retransmitTries := 5 }

/-- A client whose peer has fallen silent just before the IKE SA was due to be rekeyed. -/
theorem rekey_starves_probe_sample :
    rekeyRetryInterval = (sampleLost sampleDefault 100).s.schedule ∧
      (ticking 2000000000 (sampleLost sampleDefault 100)).s.pending.isSome = true ∧
      ∀ p, (ticking 2000000000 (sampleLost sampleDefault 100)).s.pending = some p →
        p.kind.isRekey = true := by
  have hrun : Unheard Crypto.sample 2000000000 (fun _ => True) (sampleLost sampleDefault 100) 1000
      (ticking 2000000000 (sampleLost sampleDefault 100)) 2000000000 false :=
    Unheard.start.ticking trivial (by decide) (by decide) (.inl rfl) (by decide +kernel)
  have hlong : rekeyRetryInterval = (sampleLost sampleDefault 100).s.schedule := by decide +kernel
  exact ⟨hlong, by decide +kernel, (rekey_starves_probe (able_sampleLost 100 (by decide) (by decide)) rfl
    (by decide) hlong.le rfl rfl rfl (.inl ⟨rfl, by decide, rfl, by decide⟩) hrun).2.1⟩

end GoIpsec.Session
