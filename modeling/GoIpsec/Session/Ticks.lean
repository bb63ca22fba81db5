import GoIpsec.Lib.Retry
import GoIpsec.Session.Encodable

/-!
# The timers

What a tick does.  It first looks for a gap in the wall clock, and then the outstanding exchange is
polled: it is repeated with growing delays and given up in the end, and a probe that is given up ends
the loop.  With nothing outstanding a tick starts the first exchange that is due: a rekey for
the volume of data, one of the IKE SA, one of the Child SA, and a probe only if none of these
is.
-/

set_option linter.dupNamespace false

namespace GoIpsec.Session

open Golang Ikemsg Ikesa

/-! ## The schedule of an exchange -/

def PendingExchange.attempt (p : PendingExchange) : Attempt :=
  { sent := p.attempts, due := p.nextRetransmit }

/-- The delay before attempt `k` of an exchange is repeated. -/
def Session.delay (s : Session) (fast : Bool) (k : Nat) : Nat :=
  (if fast then fastDPDBase else s.retransBackoff k).toNat

def Session.tries (s : Session) (fast : Bool) : Nat :=
  (if fast then fastDPDTries else s.retransmitTries).toNat

/-- How long a request is repeated that is not hurried. -/
def Session.schedule (s : Session) : Nat := Attempt.delays (s.delay false) (s.tries false) 0

section

variable {c : Crypto} {env : Env} {d : Drive} {s s' : Session} {p : PendingExchange} {now : Time}

theorem backoffFrom_pos {max d : Int} (hmax : 0 < max) (hd : 0 < d) (n : Nat) :
    0 < backoffFrom max n d := by
  induction n generalizing d with
  | zero => exact hd
  | succ n ih =>
      rw [backoffFrom]
      split
      · exact hmax
      · exact ih (by omega)

theorem retransmitBase_pos (s : Session) : 0 < s.retransmitBase := by
  unfold Session.retransmitBase
  split
  · assumption
  · decide

theorem retransmitMax_pos (s : Session) : 0 < s.retransmitMax := by
  unfold Session.retransmitMax
  split
  · assumption
  · decide

theorem retransmitTries_pos (s : Session) : 0 < s.retransmitTries := by
  unfold Session.retransmitTries
  split
  · assumption
  · decide

theorem pendingBackoff_eq (s : Session) (p : PendingExchange) (k : Nat) :
    s.pendingBackoff p k = (s.delay p.fast k : Int) := by
  have hpos : 0 < s.retransBackoff k := backoffFrom_pos (retransmitMax_pos s) (retransmitBase_pos s) _
  unfold Session.pendingBackoff Session.delay
  split
  · decide
  · exact (Int.toNat_of_nonneg (Int.le_of_lt hpos)).symm

theorem pendingTries_eq (s : Session) (p : PendingExchange) : s.pendingTries p = (s.tries p.fast : Int) := by
  have hpos := retransmitTries_pos s
  unfold Session.pendingTries Session.tries
  split
  · decide
  · exact (Int.toNat_of_nonneg (Int.le_of_lt hpos)).symm

theorem Time.add_natCast (t : Time) (n : Nat) : t.add (n : Int) = t + n :=
  Int.toNat_natCast (t + n)

/-- The schedule begins with the first delay. -/
theorem schedule_eq (s : Session) :
    s.retransmitBase.toNat + Attempt.delays (s.delay false) (s.tries false - 1) 1 = s.schedule := by
  have hpos : 0 < s.tries false := Int.pos_iff_toNat_pos.mp (retransmitTries_pos s)
  obtain ⟨n, hn⟩ := Nat.exists_eq_add_of_lt hpos
  rw [Session.schedule, hn, Attempt.delays]
  rfl

/-! ## What a tick does with the outstanding exchange -/

/-- The outcomes of a poll of the outstanding exchange `p`. -/
inductive Polled (now : Time) (p : PendingExchange) (d : Drive) : Go Bool × Drive → Prop
  | kept (a : Attempt) (d' : Drive)
      (hpoll : p.attempt.poll (d.s.delay p.fast) (d.s.tries p.fast) now = some a)
      (hs : d'.s = { d.s with pending := some { p with attempts := a.sent, nextRetransmit := a.due } }) :
      Polled now p d (.ok false, d')
  | dead (d' : Drive) (hpoll : p.attempt.poll (d.s.delay p.fast) (d.s.tries p.fast) now = none)
      (hprobe : p.kind = .dpd) (hlog : d'.log = .dead :: d.log) : Polled now p d (.ok true, d')
  | dropped (d' : Drive) (hpoll : p.attempt.poll (d.s.delay p.fast) (d.s.tries p.fast) now = none)
      (hprobe : p.kind ≠ .dpd)
      (hs : p.kind.reestablishes = false → d'.s = { d.s with pending := none }) :
      Polled now p d (.ok false, d')

theorem Polled.returns {res : Go Bool × Drive} (h : Polled now p d res) :
    ∃ fin d', res = (.ok fin, d') := by
  cases h <;> exact ⟨_, _, rfl⟩

theorem polled_retransmitPending (env : Env) (now : Time) (hp : d.s.pending = some p) :
    Polled now p d (retransmitPending env now p d) := by
  have htries : ((p.attempts + 1 : Nat) : Int) > d.s.pendingTries p ↔ d.s.tries p.fast < p.attempts + 1 := by
    rw [pendingTries_eq]
    omega
  unfold retransmitPending
  split
  · rename_i hdue
    have hlt : p.nextRetransmit < now := of_decide_eq_true hdue
    rw [run_session_bind]
    split
    · rename_i hout
      have hpoll : p.attempt.poll (d.s.delay p.fast) (d.s.tries p.fast) now = none :=
        Attempt.poll_eq_none.mpr ⟨hlt, Nat.lt_succ_iff.mp (htries.mp hout)⟩
      rw [run_setSession_bind]
      cases hkind : p.kind with
      | dpd => exact .dead _ hpoll hkind rfl
      | childRekey ctx =>
          refine .dropped _ hpoll (by simp [hkind]) fun hre => ?_
          rw [hkind] at hre
          simp [hre]
      | _ => exact .dropped _ hpoll (by simp [hkind]) fun _ => rfl
    · rename_i hleft
      rw [run_setSession_bind, run_emit_bind]
      obtain ⟨o, hsend⟩ := run_attempt_sendDatagram_bind env p.raw (fun _ => (pure false : Drv Bool)) _
      rw [hsend]
      refine .kept { sent := p.attempts + 1, due := now + d.s.delay p.fast (p.attempts + 1) } _ ?_ ?_
      · exact (if_pos hlt).trans (if_neg fun hout => hleft (htries.mpr hout))
      · dsimp only
        rw [pendingBackoff_eq, Time.add_natCast]
  · rename_i hdue
    refine .kept p.attempt d ?_ ?_
    · exact if_neg fun hlt => hdue (decide_eq_true hlt)
    · rw [show some { p with attempts := p.attempt.sent, nextRetransmit := p.attempt.due } = d.s.pending
        from hp.symm]

/-! ## What a tick starts -/

def Session.volumeDue (s : Session) (env : Env) (now : Time) : Prop :=
  s.dataPlane = true ∧ s.childReestablish = false ∧ now.after s.nextVolumeRekey = true ∧
    env.childSAVolume ≥ s.rekeyMaxPackets

def Session.ikeDue (s : Session) (now : Time) : Prop :=
  s.dataPlane = true ∧ s.cfg.rekeyLifetime > 0 ∧ s.nextIKERekey.isZero = false ∧
    now.after s.nextIKERekey = true

def Session.childDue (s : Session) (now : Time) : Prop :=
  s.dataPlane = true ∧ s.cfg.rekeyLifetime > 0 ∧ s.childReestablish = false ∧
    s.nextChildRekey.isZero = false ∧ now.after s.nextChildRekey = true

/-- A rekey that does not replace a Child SA the peer has deleted. -/
def ExchangeKind.plainRekey (k : ExchangeKind) : Prop := k.isRekey = true ∧ k.reestablishes = false

/-- What the timers start, if no fast probe and no replacement is owed. -/
inductive Starting (env : Env) (now : Time) (s : Session) : Session → Prop
  | volume {s' : Session} (hdue : s.volumeDue env now)
      (hout : GoesOut env ExchangeKind.plainRekey s.retransmitBase false
        { s with nextVolumeRekey := now.add rekeyRetryInterval } s') : Starting env now s s'
  | ike {s' : Session} (hdue : s.ikeDue now)
      (hout : GoesOut env ExchangeKind.plainRekey s.retransmitBase false
        { s with nextIKERekey := now.add rekeyRetryInterval } s') : Starting env now s s'
  | child {s' : Session} (hdue : s.childDue now)
      (hout : GoesOut env ExchangeKind.plainRekey s.retransmitBase false
        { s with nextChildRekey := now.add rekeyRetryInterval } s') : Starting env now s s'
  | probe {s' : Session} (hike : ¬ s.ikeDue now) (hchild : ¬ s.childDue now)
      (hout : GoesOut env (· = .dpd) s.retransmitBase false s s') : Starting env now s s'
  | rest (hike : ¬ s.ikeDue now) (hchild : ¬ s.childDue now)
      (hidle : ¬ s.idle env now > s.dpdInterval) : Starting env now s s

/-- A request whose error is only logged. -/
theorem attempt_goesOut {x : Drv Unit} {kind : ExchangeKind → Prop} {base : Duration}
    (h : ∃ r d', x d = (r, d') ∧ Safe r ∧ GoesOut env kind base false d.s d'.s) :
    ∃ d', (Proc.attempt x >>= fun _ => (pure () : Drv Unit)) d = (.ok (), d') ∧
      GoesOut env kind base false d.s d'.s := by
  obtain ⟨r, d', hx, hsafe, hout⟩ := h
  obtain ⟨o, hgo⟩ := Proc.attempt_bind_of_safe (f := fun _ => (pure () : Drv Unit)) hx hsafe
  exact ⟨d', hgo, hout⟩

theorem childRekey_goesOut (h : d.s.Able) (hrand : env.Random) :
    ∃ d', (Proc.attempt (initiateChildRekey c env false) >>= fun _ => (pure () : Drv Unit)) d =
        (.ok (), d') ∧ GoesOut env ExchangeKind.plainRekey d.s.retransmitBase false d.s d'.s := by
  obtain ⟨d', hgo, hout⟩ := attempt_goesOut (initiateChildRekey_goesOut (c := c) h hrand false)
  refine ⟨d', hgo, hout.mono ?_⟩
  rintro _ ⟨ctx, rfl, hre⟩
  exact ⟨rfl, hre⟩

theorem ikeRekey_goesOut (h : d.s.Able) (hrand : env.Random) :
    ∃ d', (Proc.attempt (initiateIKERekey c env) >>= fun _ => (pure () : Drv Unit)) d =
        (.ok (), d') ∧ GoesOut env ExchangeKind.plainRekey d.s.retransmitBase false d.s d'.s := by
  obtain ⟨d', hgo, hout⟩ := attempt_goesOut (initiateIKERekey_goesOut (c := c) h hrand)
  refine ⟨d', hgo, hout.mono ?_⟩
  rintro _ ⟨ctx, rfl⟩
  exact ⟨rfl, rfl⟩

theorem starting_startExchange (hable : d.s.Able) (hrand : env.Random) (hfast : d.s.fastDPDDue = false)
    (hre : d.s.childReestablish = false) :
    ∃ d', startExchange c env now d = (.ok (), d') ∧ Starting env now d.s d'.s := by
  rw [startExchange, run_session_bind, if_neg (by simp [hfast]), if_neg (by simp [hre])]
  split
  · rename_i hdue
    rw [run_setSession_bind]
    obtain ⟨d', hgo, hout⟩ := childRekey_goesOut (c := c) (d := { d with
      s := { d.s with nextVolumeRekey := now.add rekeyRetryInterval } })
      (hable.congr hable.ike rfl rfl rfl rfl rfl) hrand
    exact ⟨d', hgo, .volume hdue hout⟩
  split
  · rename_i hdue
    rw [run_setSession_bind]
    obtain ⟨d', hgo, hout⟩ := ikeRekey_goesOut (c := c) (d := { d with
      s := { d.s with nextIKERekey := now.add rekeyRetryInterval } })
      (hable.congr hable.ike rfl rfl rfl rfl rfl) hrand
    exact ⟨d', hgo, .ike hdue hout⟩
  rename_i hike
  split
  · rename_i hdue
    rw [run_setSession_bind]
    obtain ⟨d', hgo, hout⟩ := childRekey_goesOut (c := c) (d := { d with
      s := { d.s with nextChildRekey := now.add rekeyRetryInterval } })
      (hable.congr hable.ike rfl rfl rfl rfl rfl) hrand
    exact ⟨d', hgo, .child hdue hout⟩
  rename_i hchild
  split
  · obtain ⟨d', hgo, hout⟩ := attempt_goesOut (initiateDPD_goesOut (c := c) hable.ike hrand false)
    exact ⟨d', hgo, .probe hike hchild hout⟩
  · exact ⟨d, rfl, .rest hike hchild ‹_›⟩

/-! ## A tick before it comes to the outstanding exchange -/

/-- No time was lost since the last tick. -/
def Env.Awake (env : Env) (s : Session) : Prop :=
  s.lastTickWall.isZero = true ∨ env.wall.sub s.lastTickWall ≤ suspendThreshold

instance (env : Env) (s : Session) : Decidable (env.Awake s) := inferInstanceAs (Decidable (_ ∨ _))

/-- The outstanding exchange is hurried if time was lost. -/
def PendingExchange.woken (p : PendingExchange) (env : Env) (s : Session) : PendingExchange :=
  if env.Awake s then p else { p with fast := true, nextRetransmit := env.clock .tick }

/-- The session when the superseded IKE SA has been looked after. -/
def Attended (env : Env) (s s' : Session) : Prop :=
  ∃ old peer del, s' = { s with
    lastTickWall := env.wall, oldIKE := old, oldPeer := peer, oldIKEDelete := del }

theorem detectSuspend_awake (h : env.Awake d.s) :
    detectSuspend c env now d = (.ok (), { d with s := { d.s with lastTickWall := env.wall } }) := by
  unfold Env.Awake at h
  rw [detectSuspend, run_session_bind, run_setSession_bind, if_pos h]
  rfl

theorem detectSuspend_busy (c : Crypto) (env : Env) (hp : d.s.pending = some p) :
    ∃ d', detectSuspend c env (env.clock .tick) d = (.ok (), d') ∧
      d'.s.pending = some (p.woken env d.s) ∧ d'.s.cfg = d.s.cfg := by
  by_cases hawake : env.Awake d.s
  · rw [PendingExchange.woken, if_pos hawake]
    exact ⟨_, detectSuspend_awake hawake, hp, rfl⟩
  · rw [PendingExchange.woken, if_neg hawake]
    unfold Env.Awake at hawake
    rw [detectSuspend, run_session_bind, run_setSession_bind, if_neg hawake, run_session_bind]
    dsimp only
    rw [hp]
    dsimp only
    rw [run_setSession_bind]
    cases p.kind <;> exact ⟨_, rfl, rfl, rfl⟩

theorem expireOldIKE_ok (now : Time) (d : Drive) :
    ∃ d' old peer del, expireOldIKE now d = (.ok (), d') ∧
      d'.s = { d.s with oldIKE := old, oldPeer := peer, oldIKEDelete := del } := by
  refine ⟨(expireOldIKE now d).2, ?_⟩
  rw [expireOldIKE, setSession]
  dsimp only
  split <;> exact ⟨_, _, _, rfl, rfl⟩

theorem retransmitOldIKEDelete_ok (env : Env) (now : Time) (d : Drive) :
    ∃ d' del, retransmitOldIKEDelete env now d = (.ok (), d') ∧
      d'.s = { d.s with oldIKEDelete := del } := by
  rw [retransmitOldIKEDelete, run_session_bind]
  cases d.s.oldIKEDelete with
  | none => exact ⟨d, d.s.oldIKEDelete, rfl, rfl⟩
  | some p =>
      dsimp only
      split
      · exact ⟨_, none, rfl, rfl⟩
      split
      · split
        · exact ⟨_, none, rfl, rfl⟩
        · rw [run_setSession_bind, run_emit_bind]
          obtain ⟨o, hsend⟩ := run_attempt_sendDatagram_bind env p.raw (fun _ => (pure () : Drv Unit)) _
          rw [hsend]
          exact ⟨_, _, rfl, rfl⟩
      · exact ⟨d, d.s.oldIKEDelete, rfl, rfl⟩

/-- What a tick does when it has looked for a gap. -/
theorem housekeeping_of_detectSuspend {d₀ : Drive}
    (h : detectSuspend c env (env.clock .tick) d = (.ok (), d₀)) :
    ∃ d₁ old peer del, d₁.s = { d₀.s with oldIKE := old, oldPeer := peer, oldIKEDelete := del } ∧
      housekeeping c env d =
        (session >>= fun s => s.pending.elim
          (startExchange c env (env.clock .tick) >>= fun _ => pure false)
          (retransmitPending env (env.clock .tick))) d₁ := by
  obtain ⟨d₁, old, peer, del, hexpire, hs₁⟩ := expireOldIKE_ok (env.clock .tick) d₀
  obtain ⟨d₂, del', hdel, hs₂⟩ := retransmitOldIKEDelete_ok env (env.clock .tick) d₁
  refine ⟨d₂, old, peer, del', ?_, ?_⟩
  · rw [hs₂, hs₁]
  · rw [housekeeping, Proc.bind_of_ok h, Proc.bind_of_ok hexpire, Proc.bind_of_ok hdel,
      run_session_bind, run_session_bind]
    cases d₂.s.pending <;> rfl

theorem housekeeping_awake (h : env.Awake d.s) :
    ∃ d₁, Attended env d.s d₁.s ∧ housekeeping c env d =
      (session >>= fun s => s.pending.elim (startExchange c env (env.clock .tick) >>= fun _ => pure false)
        (retransmitPending env (env.clock .tick))) d₁ := by
  obtain ⟨d₁, old, peer, del, hs, hrun⟩ := housekeeping_of_detectSuspend (detectSuspend_awake (c := c) h)
  exact ⟨d₁, ⟨old, peer, del, hs⟩, hrun⟩

/-- A tick while an exchange is outstanding: it is hurried if need be, and polled. -/
theorem housekeeping_busy (c : Crypto) (env : Env) (hp : d.s.pending = some p) :
    ∃ d₁, d₁.s.pending = some (p.woken env d.s) ∧ d₁.s.cfg = d.s.cfg ∧
      housekeeping c env d = retransmitPending env (env.clock .tick) (p.woken env d.s) d₁ := by
  obtain ⟨d₀, hsuspend, hp₀, hcfg⟩ := detectSuspend_busy c env hp
  obtain ⟨d₁, old, peer, del, hs, hrun⟩ := housekeeping_of_detectSuspend hsuspend
  have hp₁ : d₁.s.pending = some (p.woken env d.s) := by
    rw [hs]
    exact hp₀
  refine ⟨d₁, hp₁, by rw [hs]; exact hcfg, ?_⟩
  rw [hrun, run_session_bind, hp₁]
  rfl

/-! ## The outcomes of a tick -/

/-- What a tick leaves as it is. -/
structure Undisturbed (s s' : Session) : Prop where
  cfg : s'.cfg = s.cfg
  dataPlane : s'.dataPlane = s.dataPlane
  lastInbound : s'.lastInbound = s.lastInbound
  fastDPDDue : s'.fastDPDDue = s.fastDPDDue
  childReestablish : s'.childReestablish = s.childReestablish
  able : s.Able → s'.Able

theorem Undisturbed.refl (s : Session) : Undisturbed s s := ⟨rfl, rfl, rfl, rfl, rfl, id⟩

theorem Undisturbed.trans {s₁ s₂ s₃ : Session} (h : Undisturbed s₁ s₂) (h' : Undisturbed s₂ s₃) :
    Undisturbed s₁ s₃ :=
  ⟨h'.cfg.trans h.cfg, h'.dataPlane.trans h.dataPlane, h'.lastInbound.trans h.lastInbound,
    h'.fastDPDDue.trans h.fastDPDDue, h'.childReestablish.trans h.childReestablish, h'.able ∘ h.able⟩

theorem Attended.undisturbed (h : Attended env s s') : Undisturbed s s' := by
  obtain ⟨old, peer, del, rfl⟩ := h
  exact ⟨rfl, rfl, rfl, rfl, rfl, fun hable => hable.congr hable.ike rfl rfl rfl rfl rfl⟩

theorem GoesOut.undisturbed {kind : ExchangeKind → Prop} {base : Duration} {fast : Bool}
    (h : GoesOut env kind base fast s s') : Undisturbed s s' := by
  obtain ⟨n, n', p, rfl, -⟩ := h
  exact ⟨rfl, rfl, rfl, rfl, rfl, fun hable => hable.asking⟩

theorem Starting.undisturbed (h : Starting env now s s') : Undisturbed s s' := by
  have htimer {s₁ : Session} (hout : GoesOut env ExchangeKind.plainRekey s.retransmitBase false s₁ s')
      (h₁ : Undisturbed s s₁) : Undisturbed s s' := h₁.trans hout.undisturbed
  cases h with
  | volume hdue hout | ike hdue hout | child hdue hout =>
      exact htimer hout
        ⟨rfl, rfl, rfl, rfl, rfl, fun hable => hable.congr hable.ike rfl rfl rfl rfl rfl⟩
  | probe hike hchild hout => exact hout.undisturbed
  | rest => exact .refl s

/-- The outcomes of a tick. -/
inductive Ticked (env : Env) (d : Drive) : Bool → Drive → Prop
  | free (d' : Drive) (s₁ : Session) (hnone : d.s.pending = none) (hattend : Attended env d.s s₁)
      (hstart : Starting env (env.clock .tick) s₁ d'.s) : Ticked env d false d'
  | busy (d' d₁ : Drive) (fin : Bool) (p : PendingExchange) (hp : d.s.pending = some p)
      (hattend : Attended env d.s d₁.s) (hpoll : Polled (env.clock .tick) p d₁ (.ok fin, d')) :
      Ticked env d fin d'

/-- A tick always goes through. -/
theorem ticked_driverStep (hable : d.s.Able) (hawake : env.Awake d.s) (hrand : env.Random)
    (hfast : d.s.fastDPDDue = false) (hre : d.s.childReestablish = false) :
    ∃ fin d', driverStep c env .tick d = (.ok fin, d') ∧ Ticked env d fin d' := by
  obtain ⟨d₁, hattend, hrun⟩ := housekeeping_awake (c := c) hawake
  have hkept := hattend.undisturbed
  have hpending : d₁.s.pending = d.s.pending := by
    obtain ⟨old, peer, del, hs⟩ := hattend
    rw [hs]
  rw [driverStep, hrun, run_session_bind, hpending]
  cases hp : d.s.pending with
  | none =>
      obtain ⟨d', hgo, hstart⟩ : ∃ d', startExchange c env (env.clock .tick) d₁ = (.ok (), d') ∧
          Starting env (env.clock .tick) d₁.s d'.s := starting_startExchange (hkept.able hable) hrand
        (hkept.fastDPDDue.trans hfast) (hkept.childReestablish.trans hre)
      exact ⟨false, d', Proc.bind_of_ok hgo, .free d' d₁.s hp hattend hstart⟩
  | some p =>
      have hpoll : Polled (env.clock .tick) p d₁ (retransmitPending env (env.clock .tick) p d₁) :=
        polled_retransmitPending env _ (hpending.trans hp)
      obtain ⟨fin, d', hres⟩ := hpoll.returns
      rw [hres] at hpoll
      exact ⟨fin, d', hres, .busy d' d₁ fin p hp hattend hpoll⟩

theorem delay_congr (h : s'.cfg = s.cfg) : s'.delay = s.delay := by
  funext fast k
  unfold Session.delay Session.retransBackoff Session.retransmitMax Session.retransmitBase
  rw [h]

theorem tries_congr (h : s'.cfg = s.cfg) : s'.tries = s.tries := by
  funext fast
  unfold Session.tries Session.retransmitTries
  rw [h]

/-- A request that was just sent. -/
theorem GoesOut.fresh {kind : ExchangeKind → Prop} (h : GoesOut env kind s.retransmitBase false s s') :
    ∃ p, s'.pending = some p ∧ kind p.kind ∧ p.fast = false ∧
      p.attempt = { sent := 1, due := env.clock .request + s.retransmitBase.toNat } := by
  obtain ⟨n, n', p, rfl, hkind, hsent, hfast, hdue⟩ := h
  refine ⟨p, rfl, hkind, hfast, ?_⟩
  rw [PendingExchange.attempt, hsent, hdue,
    ← Int.toNat_of_nonneg (Int.le_of_lt (retransmitBase_pos s)), Time.add_natCast]
  rfl

end

end GoIpsec.Session
