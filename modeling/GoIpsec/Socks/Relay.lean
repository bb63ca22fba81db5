import GoIpsec.Socks.Server
import Mathlib.Logic.Relation

/-!
# The relay between a client and its target

Once the handshake is over, two pumps copy octets between the client and the target, each
in its own goroutine, and a watchdog looks at the clock.  What they share is the time of the
last octets and a function that closes both connections once.

The connections are open until that function closes them, first the client's and then the
target's.  A read of an open connection returns what it likes: octets, an error, or both.
A write to an open connection goes through, or fails after some of the octets.  On a
connection that has been closed both fail.  The clock does not go back.

A pump delivers what it reads in order and without a gap.  The relay does not cut a
connection short: unless a write fails, the watchdog finds the connection idle, or one half
of it cannot be closed alone, both sides have ended and all of what they sent has been
passed on when the connections are closed.  The watchdog ends a connection that is idle,
and spares one that is not, up to the delays of the scheduler.
-/

namespace GoIpsec.Socks

open Golang

/-! ## State -/

/-- The two connections of a relay. -/
inductive Side where
  | client
  | upstream
deriving Repr, DecidableEq

def Side.other : Side → Side
  | .client => .upstream
  | .upstream => .client

/-- What a relay is started with. -/
structure RelayConfig where
  /-- How long both sides may be quiet, in nanoseconds.  Zero is for ever. -/
  idle : Nat
  /-- The connection has a CloseWrite. -/
  closeWriter : Side → Bool

/-- A pump that has come to the end of its source closes the writing half of the
destination, and nothing else. -/
def RelayConfig.halfCloses (cfg : RelayConfig) (dst : Side) : Bool :=
  cfg.closeWriter dst && decide (0 < cfg.idle)

/-- The period of the watchdog. -/
def RelayConfig.tick (cfg : RelayConfig) : Nat := max (cfg.idle / 4) 1000000000

/-- Where a pump is. -/
inductive PumpPc where
  | reading
  /-- Octets have been read, and the time is to be noted.  `last` tells that the read
  returned an error as well, `heard` is when it returned. -/
  | stamping (b : Bytes) (last : Bool) (heard : Nat)
  /-- The clock has been read. -/
  | storing (b : Bytes) (last : Bool) (heard time : Nat)
  | writing (b : Bytes) (last : Bool)
  /-- A read has failed. -/
  | ending
  /-- In the function that closes both connections. -/
  | stopping
  | done
deriving Repr, DecidableEq

/-- A pump, with the octets it has read and written. -/
structure Pump where
  pc : PumpPc := .reading
  taken : Bytes := []
  given : Bytes := []
  /-- A read of the source has failed while it was open. -/
  ended : Bool := false
  /-- A write to the destination has failed while it was open. -/
  broken : Bool := false
  /-- The writing half of the destination has been closed. -/
  halfClosed : Bool := false
deriving Repr, DecidableEq

/-- Where the watchdog is. -/
inductive WatchPc where
  /-- Waits for its next tick. -/
  | waiting (since : Nat)
  /-- Has loaded the time of the last octets. -/
  | loaded (last : Nat) (time : Nat)
  | stopping
  /-- Has returned, or was not started. -/
  | done
deriving Repr, DecidableEq

/-- Where the call itself is. -/
inductive MainPc where
  /-- Waits for the pumps. -/
  | waiting
  /-- Has told the watchdog, and is in the deferred call. -/
  | stopping
  | returned
deriving Repr, DecidableEq

/-- The goroutines of a relay.  A pump is known by its source. -/
inductive Actor where
  | pump (src : Side)
  | watchdog
  | main
deriving Repr, DecidableEq

/-- The function that closes both connections, under its once. -/
inductive Teardown where
  | untouched
  /-- The client's connection has been closed, by the goroutine that is inside. -/
  | half (who : Actor)
  | complete
deriving Repr, DecidableEq

structure Relay where
  now : Nat
  lastNanos : Nat
  /-- When octets were last read, from either side. -/
  heard : Nat
  pump : Side → Pump
  watchdog : WatchPc
  main : MainPc := .waiting
  teardown : Teardown := .untouched
  /-- The watchdog has found the connection idle. -/
  expired : Bool := false

namespace Relay

/-- A relay that begins at a time. -/
def start (cfg : RelayConfig) (now : Nat) : Relay where
  now := now
  lastNanos := now
  heard := now
  pump _ := {}
  watchdog := if 0 < cfg.idle then .waiting now else .done

def isOpen (r : Relay) : Side → Bool
  | .client => decide (r.teardown = .untouched)
  | .upstream => decide (r.teardown ≠ .complete)

def setPump (r : Relay) (src : Side) (p : Pump) : Relay :=
  { r with pump := Function.update r.pump src p }

end Relay

/-! ## Steps -/

/-- What a step of a pump does to what it shares. -/
inductive Effect where
  | quiet
  /-- Octets have been read. -/
  | hear
  | store (time : Nat)
deriving Repr, DecidableEq

/-- A step of a pump.  It is told whether its connections are open, whether it half-closes
its destination, and the time. -/
inductive Pump.Step (srcOpen dstOpen halfCloses : Bool) (now : Nat) : Pump → Effect → Pump → Prop
  | read {p : Pump} (b : Bytes) (last : Bool) (hpc : p.pc = .reading) (hopen : srcOpen = true)
      (hsome : b ≠ []) (hbuf : b.length ≤ 32 * 1024) :
      Step srcOpen dstOpen halfCloses now p .hear
        { p with pc := .stamping b last now, taken := p.taken ++ b, ended := p.ended || last }
  | readNone {p : Pump} (last : Bool) (hpc : p.pc = .reading) (hopen : srcOpen = true) :
      Step srcOpen dstOpen halfCloses now p .quiet
        { p with pc := if last then .ending else .reading, ended := p.ended || last }
  | refused {p : Pump} (hpc : p.pc = .reading) (hclosed : srcOpen = false) :
      Step srcOpen dstOpen halfCloses now p .quiet { p with pc := .ending }
  | stamp {p : Pump} {b : Bytes} {last : Bool} {heard : Nat} (hpc : p.pc = .stamping b last heard) :
      Step srcOpen dstOpen halfCloses now p .quiet { p with pc := .storing b last heard now }
  | store {p : Pump} {b : Bytes} {last : Bool} {heard time : Nat} (hpc : p.pc = .storing b last heard time) :
      Step srcOpen dstOpen halfCloses now p (.store time) { p with pc := .writing b last }
  | write {p : Pump} {b : Bytes} {last : Bool} (hpc : p.pc = .writing b last) (hopen : dstOpen = true) :
      Step srcOpen dstOpen halfCloses now p .quiet
        { p with pc := if last then .ending else .reading, given := p.given ++ b }
  /-- The write fails after `n` octets. -/
  | fail {p : Pump} {b : Bytes} {last : Bool} (n : Nat) (hpc : p.pc = .writing b last) (hopen : dstOpen = true) :
      Step srcOpen dstOpen halfCloses now p .quiet
        { p with pc := .stopping, given := p.given ++ b.take n, broken := true }
  /-- The destination has been closed. -/
  | cut {p : Pump} {b : Bytes} {last : Bool} (hpc : p.pc = .writing b last) (hclosed : dstOpen = false) :
      Step srcOpen dstOpen halfCloses now p .quiet { p with pc := .stopping }
  | halfClose {p : Pump} (hpc : p.pc = .ending) (hhalf : halfCloses = true) :
      Step srcOpen dstOpen halfCloses now p .quiet { p with pc := .done, halfClosed := true }
  | abort {p : Pump} (hpc : p.pc = .ending) (hhalf : halfCloses = false) :
      Step srcOpen dstOpen halfCloses now p .quiet { p with pc := .stopping }

namespace Relay

def apply (r : Relay) : Effect → Relay
  | .quiet => r
  | .hear => { r with heard := r.now }
  | .store time => { r with lastNanos := time }

/-- The goroutine is in the function that closes both connections. -/
def Stops (r : Relay) : Actor → Prop
  | .pump src => (r.pump src).pc = .stopping
  | .watchdog => r.watchdog = .stopping
  | .main => r.main = .stopping

/-- The goroutine comes out of that function. -/
def leave (r : Relay) : Actor → Relay
  | .pump src => r.setPump src { r.pump src with pc := .done }
  | .watchdog => { r with watchdog := .done }
  | .main => { r with main := .returned }

inductive Step (cfg : RelayConfig) : Relay → Relay → Prop
  | clock {r : Relay} (now : Nat) (h : r.now ≤ now) : Step cfg r { r with now }
  | pump {r : Relay} (src : Side) {e : Effect} {p : Pump}
      (h : Pump.Step (r.isOpen src) (r.isOpen src.other) (cfg.halfCloses src.other) r.now (r.pump src) e p) :
      Step cfg r ((r.apply e).setPump src p)
  /-- The first to come closes both connections. -/
  | closeClient {r : Relay} (who : Actor) (h : r.Stops who) (hfirst : r.teardown = .untouched) :
      Step cfg r { r with teardown := .half who }
  | closeUpstream {r : Relay} (who : Actor) (h : r.Stops who) (hinside : r.teardown = .half who) :
      Step cfg r { r with teardown := .complete }
  /-- Whoever comes later waits until that is done. -/
  | leave {r : Relay} (who : Actor) (h : r.Stops who) (hover : r.teardown = .complete) :
      Step cfg r (r.leave who)
  | load {r : Relay} {since : Nat} (h : r.watchdog = .waiting since) :
      Step cfg r { r with watchdog := .loaded r.lastNanos r.now }
  | calm {r : Relay} {last time : Nat} (h : r.watchdog = .loaded last time) (hcalm : r.now < last + cfg.idle) :
      Step cfg r { r with watchdog := .waiting r.now }
  | expire {r : Relay} {last time : Nat} (h : r.watchdog = .loaded last time)
      (hidle : last + cfg.idle ≤ r.now) :
      Step cfg r { r with watchdog := .stopping, expired := true }
  /-- The relay is over, and the watchdog was told. -/
  | dismiss {r : Relay} {since : Nat} (h : r.watchdog = .waiting since) (hmain : r.main ≠ .waiting) :
      Step cfg r { r with watchdog := .done }
  | join {r : Relay} (h : r.main = .waiting) (hdone : ∀ src, (r.pump src).pc = .done) :
      Step cfg r { r with main := .stopping }

/-- The states of the runs from a given one. -/
def Steps (cfg : RelayConfig) : Relay → Relay → Prop := Relation.ReflTransGen (Step cfg)

end Relay

/-! ## Order -/

/-- The octets that a pump holds. -/
def PumpPc.held : PumpPc → Bytes
  | .stamping b _ _ | .storing b _ _ _ | .writing b _ => b
  | _ => []

/-- The pump has not met a failing write, and is not through. -/
def PumpPc.working : PumpPc → Bool
  | .stopping | .done => false
  | _ => true

/-- The read that gave what the pump holds returned an error. -/
def PumpPc.last : PumpPc → Bool
  | .stamping _ last _ | .storing _ last _ _ | .writing _ last => last
  | _ => false

/-- The source of the pump has ended, and all of what it sent has been passed on. -/
def Pump.Through (p : Pump) : Prop := p.ended = true ∧ p.given = p.taken

/-- What a pump has written is a part of what it has read, from the start, and what is
missing it holds.  A pump has its own reasons to end, until the connections are `closed`. -/
structure Pump.Sound (halfCloses : Bool) (closed : Prop) (p : Pump) : Prop where
  order : p.given <+: p.taken
  held : p.pc.working = true → p.given ++ p.pc.held = p.taken
  last : p.pc.last = true → p.ended = true
  ending : p.pc = .ending → p.ended = true ∨ closed
  stopping : p.pc = .stopping → p.broken = true ∨ (halfCloses = false ∧ p.Through) ∨ closed
  done : p.pc = .done → p.halfClosed = true ∨ closed
  halfClosed : p.halfClosed = true → p.pc = .done ∧ p.given = p.taken ∧ (p.ended = true ∨ closed)

section

variable {closed closed' : Prop} {p p' : Pump} {srcOpen dstOpen halfCloses : Bool} {now : Nat} {e : Effect}

theorem Pump.Sound.mono (h : p.Sound halfCloses closed) (himp : closed → closed') :
    p.Sound halfCloses closed' where
  order := h.order
  held := h.held
  last := h.last
  ending hpc := (h.ending hpc).imp_right himp
  stopping hpc := (h.stopping hpc).imp_right (Or.imp_right himp)
  done hpc := (h.done hpc).imp_right himp
  halfClosed hhalf := (h.halfClosed hhalf).imp_right (And.imp_right (Or.imp_right himp))

/-- A pump that is at work. -/
theorem Pump.sound_of_working (hworking : p.pc.working = true) (hheld : p.given ++ p.pc.held = p.taken)
    (hlast : p.pc.last = true → p.ended = true) (hending : p.pc = .ending → p.ended = true ∨ closed)
    (hhalf : p.halfClosed = false) : p.Sound halfCloses closed where
  order := ⟨_, hheld⟩
  held _ := hheld
  last := hlast
  ending := hending
  stopping hpc := by rw [hpc] at hworking; cases hworking
  done hpc := by rw [hpc] at hworking; cases hworking
  halfClosed h := by rw [hhalf] at h; cases h

/-- A pump in the function that closes both connections. -/
theorem Pump.sound_of_stopping (hpc : p.pc = .stopping) (horder : p.given <+: p.taken)
    (hwhy : p.broken = true ∨ (halfCloses = false ∧ p.Through) ∨ closed) (hhalf : p.halfClosed = false) :
    p.Sound halfCloses closed where
  order := horder
  held h := by rw [hpc] at h; cases h
  last h := by rw [hpc] at h; cases h
  ending h := by rw [hpc] at h; cases h
  stopping _ := hwhy
  done h := by rw [hpc] at h; cases h
  halfClosed h := by rw [hhalf] at h; cases h

theorem Pump.Sound.halfClosed_of_ne (h : p.Sound halfCloses closed) (hpc : p.pc ≠ .done) :
    p.halfClosed = false := by
  by_contra hhalf
  exact hpc (h.halfClosed (by simpa using hhalf)).1

/-- A pump that can take a step is not through, and not in the function that closes. -/
theorem Pump.Step.working (h : Pump.Step srcOpen dstOpen halfCloses now p e p') : p.pc.working = true := by
  cases h <;> simp only [*, PumpPc.working]

/-- A step of a pump keeps the invariant, if reads are refused and writes cut only by a
closed connection. -/
theorem Pump.Sound.step (h : p.Sound halfCloses closed)
    (hstep : Pump.Step srcOpen dstOpen halfCloses now p e p')
    (hsrc : srcOpen = false → closed) (hdst : dstOpen = false → closed) : p'.Sound halfCloses closed := by
  have hheld := h.held
  have hlast := h.last
  have hhalf := h.halfClosed_of_ne
  cases hstep with
  | read b last hpc =>
      simp only [hpc, PumpPc.working, PumpPc.held, List.append_nil, forall_const] at hheld
      exact Pump.sound_of_working rfl (by simp [hheld, PumpPc.held])
        (fun hlast => by simp [show last = true from hlast]) nofun (hhalf (by simp [hpc]))
  | readNone last hpc =>
      simp only [hpc, PumpPc.working, PumpPc.held, List.append_nil, forall_const] at hheld
      cases last <;> exact Pump.sound_of_working rfl (by simp [hheld, PumpPc.held]) nofun (by simp)
        (hhalf (by simp [hpc]))
  | refused hpc hclosed =>
      simp only [hpc, PumpPc.working, PumpPc.held, List.append_nil, forall_const] at hheld
      exact Pump.sound_of_working rfl (by simp [hheld, PumpPc.held]) nofun (fun _ => .inr (hsrc hclosed))
        (hhalf (by simp [hpc]))
  | stamp hpc | store hpc =>
      simp only [hpc, PumpPc.working, PumpPc.held, PumpPc.last, forall_const] at hheld hlast
      exact Pump.sound_of_working rfl hheld hlast nofun (hhalf (by simp [hpc]))
  | @write b last hpc =>
      simp only [hpc, PumpPc.working, PumpPc.held, PumpPc.last, forall_const] at hheld hlast
      have hgiven : p.given ++ b ++ [] = p.taken := by rw [List.append_nil, hheld]
      cases last with
      | true => exact Pump.sound_of_working rfl hgiven nofun (fun _ => .inl (hlast rfl)) (hhalf (by simp [hpc]))
      | false => exact Pump.sound_of_working rfl hgiven nofun nofun (hhalf (by simp [hpc]))
  | @fail b last n hpc =>
      simp only [hpc, PumpPc.working, PumpPc.held, forall_const] at hheld
      refine Pump.sound_of_stopping rfl ?_ (.inl rfl) (hhalf (by simp [hpc]))
      rw [← hheld]
      exact (List.prefix_append_right_inj _).mpr (List.take_prefix n b)
  | cut hpc hclosed =>
      exact Pump.sound_of_stopping rfl h.order (.inr (.inr (hdst hclosed))) (hhalf (by simp [hpc]))
  | halfClose hpc =>
      simp only [hpc, PumpPc.working, PumpPc.held, List.append_nil, forall_const] at hheld
      exact ⟨h.order, nofun, nofun, nofun, nofun, fun _ => .inl rfl, fun _ => ⟨rfl, hheld, h.ending hpc⟩⟩
  | abort hpc hnot =>
      simp only [hpc, PumpPc.working, PumpPc.held, List.append_nil, forall_const] at hheld
      refine Pump.sound_of_stopping rfl h.order (.inr ?_) (hhalf (by simp [hpc]))
      exact (h.ending hpc).imp (fun hended => ⟨hnot, hended, hheld⟩) id

/-- A pump that comes out of the function that closes both connections. -/
theorem Pump.Sound.leave (h : p.Sound halfCloses closed) (hpc : p.pc = .stopping) (hclosed : closed) :
    Pump.Sound halfCloses closed { p with pc := .done } where
  order := h.order
  held := nofun
  last := nofun
  ending := nofun
  stopping := nofun
  done _ := .inr hclosed
  halfClosed hhalf := by
    have hopen := h.halfClosed_of_ne (by simp [hpc])
    rw [hopen] at hhalf
    cases hhalf

end

namespace Relay

/-- A relay: every pump has its reasons, the watchdog closes an idle connection, and the
call returns when both pumps are through and the connections are closed. -/
structure Sound (cfg : RelayConfig) (r : Relay) : Prop where
  pumps : ∀ src, (r.pump src).Sound (cfg.halfCloses src.other) (r.teardown ≠ .untouched)
  watchdog : r.watchdog = .stopping → r.expired = true
  joined : r.main ≠ .waiting → ∀ src, (r.pump src).pc = .done
  returned : r.main = .returned → r.teardown = .complete
  inside : ∀ who, r.teardown = .half who → r.Stops who

section

variable {cfg : RelayConfig} {r r' : Relay} {src : Side} {t : Nat}

theorem sound_start : (start cfg t).Sound cfg where
  pumps _ := Pump.sound_of_working rfl rfl nofun nofun rfl
  watchdog h := by
    simp only [start] at h
    split at h <;> cases h
  joined h := absurd rfl h
  returned h := by cases h
  inside _ h := by cases h

theorem closed_of_isOpen (h : r.isOpen src = false) : r.teardown ≠ .untouched := by
  intro huntouched
  cases src <;> simp [isOpen, huntouched] at h

@[simp]
theorem teardown_apply (e : Effect) : (r.apply e).teardown = r.teardown := by cases e <;> rfl

@[simp]
theorem main_apply (e : Effect) : (r.apply e).main = r.main := by cases e <;> rfl

@[simp]
theorem watchdog_apply (e : Effect) : (r.apply e).watchdog = r.watchdog := by cases e <;> rfl

@[simp]
theorem expired_apply (e : Effect) : (r.apply e).expired = r.expired := by cases e <;> rfl

@[simp]
theorem pump_apply (e : Effect) : (r.apply e).pump = r.pump := by cases e <;> rfl

@[simp]
theorem now_apply (e : Effect) : (r.apply e).now = r.now := by cases e <;> rfl

/-- A step of a pump.  What the other goroutines rely on is that it is not through. -/
theorem Sound.pump (h : r.Sound cfg) {e : Effect} {p : Pump}
    (hstep : Pump.Step (r.isOpen src) (r.isOpen src.other) (cfg.halfCloses src.other) r.now (r.pump src) e p) :
    ((r.apply e).setPump src p).Sound cfg := by
  have hnot : ¬ ∀ side, (r.pump side).pc = .done := fun hdone => by
    have hworking := hstep.working
    rw [hdone src] at hworking
    cases hworking
  have hsound := (h.pumps src).step hstep closed_of_isOpen closed_of_isOpen
  refine ⟨fun side => ?_, ?_, ?_, ?_, fun who hwho => ?_⟩
  · by_cases hside : side = src
    · subst hside
      simpa [setPump] using hsound
    · simpa [setPump, Function.update_of_ne hside] using h.pumps side
  · simpa [setPump] using h.watchdog
  · intro hmain
    exact absurd (h.joined (by simpa [setPump] using hmain)) hnot
  · intro hmain
    exact absurd (h.joined (by simp_all [setPump])) hnot
  · have hstops := h.inside who (by simpa [setPump] using hwho)
    cases who with
    | pump side =>
        have hside : side ≠ src := by
          rintro rfl
          have hworking := hstep.working
          rw [show (r.pump side).pc = .stopping from hstops] at hworking
          cases hworking
        simpa [Stops, setPump, Function.update_of_ne hside] using hstops
    | watchdog => simpa [Stops, setPump] using hstops
    | main => simpa [Stops, setPump] using hstops

theorem not_half (h : r.teardown = .complete) {who : Actor} : r.teardown ≠ .half who := by simp [h]

/-- A goroutine that comes out of the function that closes both connections. -/
theorem Sound.leave (h : r.Sound cfg) {who : Actor} (hstops : r.Stops who) (hover : r.teardown = .complete) :
    (r.leave who).Sound cfg := by
  have hclosed : r.teardown ≠ .untouched := by simp [hover]
  cases who with
  | pump src =>
      refine ⟨fun side => ?_, h.watchdog, fun hmain => ?_, h.returned, fun who hwho => ?_⟩
      · by_cases hside : side = src
        · subst hside
          simpa [Relay.leave, setPump] using (h.pumps side).leave hstops hclosed
        · simpa [Relay.leave, setPump, Function.update_of_ne hside] using h.pumps side
      · have hdone := h.joined hmain src
        rw [show (r.pump src).pc = .stopping from hstops] at hdone
        cases hdone
      · exact absurd hwho (not_half hover)
  | watchdog =>
      exact ⟨h.pumps, nofun, h.joined, h.returned, fun who hwho => absurd hwho (not_half hover)⟩
  | main =>
      refine ⟨h.pumps, h.watchdog, fun _ => h.joined ?_, fun _ => hover, fun who hwho => ?_⟩
      · rw [show r.main = .stopping from hstops]
        nofun
      · exact absurd hwho (not_half hover)

/-- The watchdog, when it goes on without closing, is not the one inside. -/
theorem Sound.watch (h : r.Sound cfg) (hnot : r.watchdog ≠ .stopping) {pc : WatchPc} {expired : Bool}
    (hpc : pc = .stopping → expired = true) : Sound cfg { r with watchdog := pc, expired := expired } where
  pumps := h.pumps
  watchdog := hpc
  joined := h.joined
  returned := h.returned
  inside who hwho := by
    have hstops := h.inside who hwho
    cases who with
    | pump | main => exact hstops
    | watchdog => exact absurd hstops hnot

theorem Sound.step (h : r.Sound cfg) (hstep : Step cfg r r') : r'.Sound cfg := by
  cases hstep with
  | clock now => exact ⟨h.pumps, h.watchdog, h.joined, h.returned, h.inside⟩
  | pump src hpump => exact h.pump hpump
  | closeClient who hstops hfirst =>
      refine ⟨fun src => (h.pumps src).mono (fun _ => by simp), h.watchdog, h.joined, fun hmain => ?_, ?_⟩
      · have hover := h.returned hmain
        rw [hfirst] at hover
        cases hover
      · rintro _ ⟨⟩
        cases who <;> exact hstops
  | closeUpstream who hstops =>
      exact ⟨fun src => (h.pumps src).mono (fun _ => by simp), h.watchdog, h.joined, fun _ => rfl, nofun⟩
  | leave who hstops hover => exact h.leave hstops hover
  | load hpc => exact h.watch (by simp [hpc]) nofun
  | calm hpc => exact h.watch (by simp [hpc]) nofun
  | expire hpc => exact h.watch (by simp [hpc]) (fun _ => rfl)
  | dismiss hpc => exact h.watch (by simp [hpc]) nofun
  | join hmain hdone =>
      refine ⟨h.pumps, h.watchdog, fun _ => hdone, nofun, fun who hwho => ?_⟩
      have hstops := h.inside who hwho
      cases who with
      | pump | watchdog => exact hstops
      | main =>
          rw [Stops, hmain] at hstops
          cases hstops

theorem Sound.steps (h : r.Sound cfg) (hsteps : Steps cfg r r') : r'.Sound cfg := by
  induction hsteps with
  | refl => exact h
  | tail _ hstep ih => exact ih.step hstep

end

/-- What brings a goroutine to close the connections. -/
def Reason (cfg : RelayConfig) (r : Relay) : Actor → Prop
  | .pump src =>
      (r.pump src).broken = true ∨ (cfg.halfCloses src.other = false ∧ (r.pump src).Through)
  | .watchdog => r.expired = true
  | .main => ∀ src, (r.pump src).halfClosed = true ∧ (r.pump src).Through

end Relay

/-- Whatever the order in which the goroutines take their steps: a pump writes what it has
read, in order and without a gap, and when it has closed the writing half of the destination
it has written all of it.  The goroutine that is first to close the connections has found a
write that fails, or an idle connection; or the source has ended, everything from it has
been written, and the destination has no half to close alone; or both pumps are through with
everything.  When the call returns, both connections are closed and both pumps have ended. -/
theorem relay_delivers (cfg : RelayConfig) (t : Nat) {r : Relay} (hrun : Relay.Steps cfg (Relay.start cfg t) r) :
    (∀ src, (r.pump src).given <+: (r.pump src).taken) ∧
      (∀ src, (r.pump src).halfClosed = true → (r.pump src).given = (r.pump src).taken) ∧
      (r.teardown = .untouched → ∀ who, r.Stops who → r.Reason cfg who) ∧
      (r.main = .returned → r.teardown = .complete ∧ ∀ src, (r.pump src).pc = .done) := by
  have h := Relay.sound_start.steps hrun
  refine ⟨fun src => (h.pumps src).order, fun src hhalf => ((h.pumps src).halfClosed hhalf).2.1, ?_,
    fun hmain => ⟨h.returned hmain, h.joined (by simp [hmain])⟩⟩
  intro hopen who hstops
  cases who with
  | pump src =>
      exact ((h.pumps src).stopping hstops).imp_right (Or.resolve_right · (not_not_intro hopen))
  | watchdog => exact h.watchdog hstops
  | main =>
      intro src
      have hdone := h.joined (by simp [show r.main = .stopping from hstops]) src
      have hhalf := ((h.pumps src).done hdone).resolve_right (not_not_intro hopen)
      obtain ⟨-, hgiven, hended⟩ := (h.pumps src).halfClosed hhalf
      exact ⟨hhalf, hended.resolve_right (not_not_intro hopen), hgiven⟩

/-- A relay of two connections that can be half-closed, and is idle after a second. -/
def sampleRelay : RelayConfig where
  idle := 1000000000
  closeWriter _ := true

/-- The client sends one octet and ends, and then the target ends. -/
theorem sampleRelay_run :
    ∃ r, Relay.Steps sampleRelay (Relay.start sampleRelay 0) r ∧ r.main = .stopping ∧ r.teardown = .complete ∧
      (r.pump .client).given = [1] ∧ r.watchdog ≠ .done :=
  ⟨_, Relation.ReflTransGen.refl
    |>.tail (.pump .client (.read [1] true rfl rfl (by decide) (by decide)))
    |>.tail (.pump .client (.stamp rfl))
    |>.tail (.pump .client (.store rfl))
    |>.tail (.pump .client (.write rfl rfl))
    |>.tail (.pump .client (.halfClose rfl rfl))
    |>.tail (.pump .upstream (.readNone true rfl rfl))
    |>.tail (.pump .upstream (.halfClose rfl rfl))
    |>.tail (.join rfl (fun src => by cases src <;> rfl))
    |>.tail (.closeClient .main (by rfl) rfl)
    |>.tail (.closeUpstream .main (by rfl) rfl), rfl, rfl, rfl, nofun⟩

theorem relay_delivers_sample :
    ∃ r, Relay.Steps sampleRelay (Relay.start sampleRelay 0) r ∧ r.main = .returned ∧
      (r.pump .client).given = [1] ∧ r.teardown = .complete ∧ ∀ src, (r.pump src).pc = .done := by
  obtain ⟨r, hrun, hmain, hover, hgiven, -⟩ := sampleRelay_run
  have hreturn := hrun.tail (.leave .main hmain hover)
  exact ⟨_, hreturn, rfl, hgiven, (relay_delivers sampleRelay 0 hreturn).2.2.2 rfl⟩

/-! ## Return -/

/-- The steps that a pump takes at most when both connections are closed. -/
def PumpPc.left : PumpPc → Nat
  | .stamping .. => 5
  | .storing .. => 4
  | .writing .. | .reading => 3
  | .ending => 2
  | .stopping => 1
  | .done => 0

def MainPc.left : MainPc → Nat
  | .waiting => 2
  | .stopping => 1
  | .returned => 0

/-- The steps that the watchdog needs to end when it was told. -/
def WatchPc.left : WatchPc → Nat
  | .loaded .. => 2
  | .waiting _ | .stopping => 1
  | .done => 0

/-- The steps that a relay takes at most until it returns, when both connections are closed. -/
def Relay.left (r : Relay) : Nat :=
  (r.pump .client).pc.left + (r.pump .upstream).pc.left + r.main.left

section

variable {cfg : RelayConfig} {r r' : Relay} {src : Side} {p p' : Pump} {srcOpen dstOpen halfCloses : Bool}
  {now : Nat} {e : Effect}

theorem PumpPc.left_le (pc : PumpPc) : pc.left ≤ 5 := by cases pc <;> simp [PumpPc.left]

/-- On closed connections a pump comes nearer to its end with every step. -/
theorem Pump.Step.left_lt (h : Pump.Step srcOpen dstOpen halfCloses now p e p') (hsrc : srcOpen = false)
    (hdst : dstOpen = false) : p'.pc.left < p.pc.left := by
  cases h <;> simp_all [PumpPc.left]

/-- And it is never stuck. -/
theorem Pump.exists_step (h : p.pc.working = true) (hsrc : srcOpen = false) (hdst : dstOpen = false) :
    ∃ e p', Pump.Step srcOpen dstOpen halfCloses now p e p' := by
  cases hpc : p.pc with
  | reading => exact ⟨_, _, .refused hpc hsrc⟩
  | stamping => exact ⟨_, _, .stamp hpc⟩
  | storing => exact ⟨_, _, .store hpc⟩
  | writing => exact ⟨_, _, .cut hpc hdst⟩
  | ending =>
      cases hhalf : halfCloses with
      | true => exact ⟨_, _, .halfClose hpc rfl⟩
      | false => exact ⟨_, _, .abort hpc rfl⟩
  | stopping | done =>
      rw [hpc] at h
      cases h

namespace Relay

theorem isOpen_of_complete (h : r.teardown = .complete) : ∀ src, r.isOpen src = false
  | .client | .upstream => by simp [isOpen, h]

theorem left_setPump (h : p.pc.left < (r.pump src).pc.left) : (r.setPump src p).left < r.left := by
  cases src <;> simp [left, setPump, Function.update] <;> omega

@[simp]
theorem left_apply : (r.apply e).left = r.left := by simp [left]

/-- A step on closed connections. -/
theorem left_le_of_step (hover : r.teardown = .complete) (hstep : Step cfg r r') :
    r'.teardown = .complete ∧ r'.left ≤ r.left := by
  cases hstep with
  | clock | load | calm | expire | dismiss => exact ⟨hover, Nat.le_refl _⟩
  | pump src hpump =>
      have hlt := hpump.left_lt (isOpen_of_complete hover src) (isOpen_of_complete hover src.other)
      exact ⟨by simpa [setPump] using hover, (left_setPump (by simpa using hlt)).le.trans_eq left_apply⟩
  | closeClient _ _ hfirst => simp [hover] at hfirst
  | closeUpstream _ _ hinside => simp [hover] at hinside
  | leave who hstops =>
      cases who with
      | pump src =>
          refine ⟨hover, (left_setPump ?_).le⟩
          rw [show (r.pump src).pc = .stopping from hstops]
          exact Nat.zero_lt_one
      | watchdog => exact ⟨hover, Nat.le_refl _⟩
      | main =>
          refine ⟨hover, ?_⟩
          simp [left, Relay.leave, MainPc.left]
  | join hmain => exact ⟨hover, by simp [left, hmain, MainPc.left]⟩

/-- A relay that has not returned can come nearer to it. -/
theorem exists_left_lt (cfg : RelayConfig) (hover : r.teardown = .complete) (hmain : r.main ≠ .returned) :
    ∃ r', Step cfg r r' ∧ r'.left < r.left := by
  by_cases hdone : ∀ src, (r.pump src).pc = .done
  · cases hpc : r.main with
    | waiting => exact ⟨_, .join hpc hdone, by simp [left, hpc, MainPc.left]⟩
    | stopping => exact ⟨_, .leave .main hpc hover, by simp [left, Relay.leave, hpc, MainPc.left]⟩
    | returned => exact absurd hpc hmain
  · obtain ⟨src, hsrc⟩ := not_forall.mp hdone
    by_cases hstops : (r.pump src).pc = .stopping
    · exact ⟨_, .leave (.pump src) hstops hover, left_setPump (by rw [hstops]; exact Nat.zero_lt_one)⟩
    · have hworking : (r.pump src).pc.working = true := by
        cases hpc : (r.pump src).pc <;> first | rfl | contradiction
      have hsrc := isOpen_of_complete hover src
      have hdst := isOpen_of_complete hover src.other
      obtain ⟨e, p, hpump⟩ := Pump.exists_step hworking hsrc hdst
      exact ⟨_, .pump src hpump, (left_setPump (by simpa using hpump.left_lt hsrc hdst)).trans_eq left_apply⟩

/-- A watchdog that was told, and has not ended, can come nearer to it.  On a tick it may still
look at the clock first. -/
theorem exists_watchdog_lt (hover : r.teardown = .complete) (hmain : r.main = .returned)
    (hwatch : r.watchdog ≠ .done) :
    ∃ r', Step cfg r r' ∧ r'.main = .returned ∧ r'.watchdog.left < r.watchdog.left := by
  cases hpc : r.watchdog with
  | waiting since => exact ⟨_, .dismiss hpc (by simp [hmain]), hmain, Nat.zero_lt_one⟩
  | loaded last time =>
      by_cases hcalm : r.now < last + cfg.idle
      · exact ⟨_, .calm hpc hcalm, hmain, Nat.one_lt_two⟩
      · exact ⟨_, .expire hpc (Nat.le_of_not_lt hcalm), hmain, Nat.one_lt_two⟩
  | stopping => exact ⟨_, .leave .watchdog hpc hover, hmain, Nat.zero_lt_one⟩
  | done => exact absurd hpc hwatch

theorem left_le_of_steps (hover : r.teardown = .complete) (hsteps : Steps cfg r r') :
    r'.teardown = .complete ∧ r'.left ≤ r.left := by
  induction hsteps with
  | refl => exact ⟨hover, Nat.le_refl _⟩
  | tail _ hstep ih => exact ⟨(left_le_of_step ih.1 hstep).1, (left_le_of_step ih.1 hstep).2.trans ih.2⟩

theorem left_le (r : Relay) : r.left ≤ 12 := by
  have hclient := (r.pump .client).pc.left_le
  have hupstream := (r.pump .upstream).pc.left_le
  have hmain : r.main.left ≤ 2 := by cases r.main <;> simp [MainPc.left]
  simp only [left]
  omega

end Relay

end

/-- Once both connections are closed the relay leaks no goroutine.  Whatever happens from
then on, no step takes it farther from its return, and until it has returned some goroutine
can take a step that brings it nearer; there are at most twelve of those.  When it has
returned, the watchdog can end too, in at most two steps of its own. -/
theorem closed_relay_returns (cfg : RelayConfig) {r r' : Relay} (hover : r.teardown = .complete)
    (hrun : Relay.Steps cfg r r') :
    r'.left ≤ r.left ∧ r.left ≤ 12 ∧
      (r'.main = .returned ∨ ∃ r'', Relay.Step cfg r' r'' ∧ r''.left < r'.left) ∧
      r'.watchdog.left ≤ 2 ∧
      (r'.main = .returned → r'.watchdog = .done ∨
        ∃ r'', Relay.Step cfg r' r'' ∧ r''.main = .returned ∧ r''.watchdog.left < r'.watchdog.left) := by
  obtain ⟨hover', hle⟩ := Relay.left_le_of_steps hover hrun
  have hwatch : r'.watchdog.left ≤ 2 := by cases r'.watchdog <;> simp [WatchPc.left]
  refine ⟨hle, r.left_le, ?_, hwatch, fun hmain => ?_⟩
  · by_cases hmain : r'.main = .returned
    · exact .inl hmain
    · exact .inr (Relay.exists_left_lt cfg hover' hmain)
  · by_cases hdone : r'.watchdog = .done
    · exact .inl hdone
    · exact .inr (Relay.exists_watchdog_lt hover' hmain hdone)

/-- The call can return, and when it has, so can the watchdog. -/
theorem closed_relay_returns_sample :
    (∃ r, Relay.Steps sampleRelay (Relay.start sampleRelay 0) r ∧ r.main = .stopping ∧
      ∃ r', Relay.Step sampleRelay r r' ∧ r'.left < r.left) ∧
    ∃ r, Relay.Steps sampleRelay (Relay.start sampleRelay 0) r ∧ r.main = .returned ∧
      r.watchdog ≠ .done ∧ ∃ r', Relay.Step sampleRelay r r' ∧ r'.watchdog.left < r.watchdog.left := by
  obtain ⟨r, hrun, hmain, hover, -, hwatch⟩ := sampleRelay_run
  have hreturn : Relay.Step sampleRelay r (r.leave .main) := .leave .main hmain hover
  obtain ⟨-, -, hnearer, -⟩ := closed_relay_returns sampleRelay hover .refl
  obtain ⟨-, -, -, -, hends⟩ := closed_relay_returns sampleRelay hover (.single hreturn)
  obtain ⟨r', hstep, -, hlt⟩ := (hends rfl).resolve_left hwatch
  exact ⟨⟨r, hrun, hmain, hnearer.resolve_left (by simp [hmain])⟩,
    _, hrun.tail hreturn, rfl, hwatch, r', hstep, hlt⟩

/-! ## Idle connections -/

/-- When the octets were read whose time is not stored yet. -/
def PumpPc.pending : PumpPc → Option Nat
  | .stamping _ _ heard | .storing _ _ heard _ => some heard
  | _ => none

namespace Relay

/-- The scheduler is not late by more than `δ`: a pump stores the time of what it has read,
and the watchdog looks at the clock when a tick is due. -/
structure Prompt (cfg : RelayConfig) (δ : Nat) (r : Relay) : Prop where
  pumps : ∀ src heard, (r.pump src).pc.pending = some heard → r.now ≤ heard + δ
  tick : ∀ since, r.watchdog = .waiting since → r.now ≤ since + cfg.tick + δ
  look : ∀ last time, r.watchdog = .loaded last time → r.now ≤ time + δ

/-- One side or the other has sent octets in the last `quiet` nanoseconds. -/
def Busy (quiet : Nat) (r : Relay) : Prop := r.now ≤ r.heard + quiet

/-- The runs all of whose states have a property. -/
def StepsIn (cfg : RelayConfig) (P : Relay → Prop) : Relay → Relay → Prop :=
  Relation.ReflTransGen fun r r' => P r ∧ Step cfg r r' ∧ P r'

/-- The times in a relay. -/
structure Clocked (δ : Nat) (r : Relay) : Prop where
  heard : r.heard ≤ r.now
  last : r.lastNanos ≤ r.heard + δ
  pending : ∀ src heard, (r.pump src).pc.pending = some heard → heard ≤ r.heard
  storing : ∀ src b last heard time, (r.pump src).pc = .storing b last heard time →
    heard ≤ time ∧ time ≤ heard + δ

end Relay

section

variable {cfg : RelayConfig} {r r' : Relay} {src : Side} {p p' : Pump} {srcOpen dstOpen halfCloses : Bool}
  {now δ quiet : Nat} {e : Effect} {P Q : Relay → Prop}

/-- A pump between a read and the store of its time. -/
theorem Pump.Step.pending (h : Pump.Step srcOpen dstOpen halfCloses now p e p') :
    (e = .hear ∧ p.pc.pending = none ∧ p'.pc.pending = some now) ∨
      (∃ b last heard time, e = .store time ∧ p.pc = .storing b last heard time ∧ p'.pc.pending = none) ∨
      (e = .quiet ∧ p'.pc.pending = p.pc.pending) := by
  cases h with
  | read b last hpc => exact .inl ⟨rfl, by rw [hpc]; rfl, rfl⟩
  | store hpc => exact .inr (.inl ⟨_, _, _, _, rfl, hpc, rfl⟩)
  | readNone last hpc | write hpc => 
      refine .inr (.inr ⟨rfl, ?_⟩)
      rw [hpc]
      cases ‹Bool› <;> rfl
  | refused hpc | stamp hpc | fail n hpc | cut hpc | halfClose hpc | abort hpc =>
      exact .inr (.inr ⟨rfl, by rw [hpc]; rfl⟩)

/-- A time that is to be stored was to be stored before, or is the time now. -/
theorem Pump.Step.storing (h : Pump.Step srcOpen dstOpen halfCloses now p e p') {b : Bytes} {last : Bool}
    {heard time : Nat} (hpc' : p'.pc = .storing b last heard time) :
    p.pc.pending = some heard ∧ time = now := by
  cases h with
  | stamp hpc =>
      cases hpc'
      exact ⟨by rw [hpc]; rfl, rfl⟩
  | readNone last | write =>
      cases ‹Bool› <;> cases hpc'
  | _ => cases hpc'

namespace Relay

/-- A step that is not one of a pump's, as a pump sees it. -/
structure Aside (r r' : Relay) : Prop where
  now : r.now ≤ r'.now
  heard : r'.heard = r.heard
  last : r'.lastNanos = r.lastNanos
  pump : ∀ src, (r'.pump src).pc = (r.pump src).pc ∨ ((r.pump src).pc = .stopping ∧ (r'.pump src).pc = .done)

theorem Step.pump_or_aside (h : Step cfg r r') :
    (∃ src e p, Pump.Step (r.isOpen src) (r.isOpen src.other) (cfg.halfCloses src.other) r.now (r.pump src) e p ∧
      r' = (r.apply e).setPump src p) ∨ r.Aside r' := by
  cases h with
  | clock now hnow => exact .inr ⟨hnow, rfl, rfl, fun _ => .inl rfl⟩
  | pump src hpump => exact .inl ⟨src, _, _, hpump, rfl⟩
  | closeClient | closeUpstream | load | calm | expire | dismiss | join =>
      exact .inr ⟨Nat.le_refl _, rfl, rfl, fun _ => .inl rfl⟩
  | leave who hstops =>
      cases who with
      | watchdog | main => exact .inr ⟨Nat.le_refl _, rfl, rfl, fun _ => .inl rfl⟩
      | pump src =>
          refine .inr ⟨Nat.le_refl _, rfl, rfl, fun side => ?_⟩
          by_cases hside : side = src
          · subst hside
            exact .inr ⟨hstops, by simp [Relay.leave, setPump]⟩
          · exact .inl (by simp [Relay.leave, setPump, Function.update_of_ne hside])

theorem Aside.pending (h : r.Aside r') (src : Side) : (r'.pump src).pc.pending = (r.pump src).pc.pending := by
  rcases h.pump src with hpc | ⟨hpc, hpc'⟩
  · rw [hpc]
  · rw [hpc, hpc']
    rfl

theorem pump_setPump (side : Side) :
    ((r.apply e).setPump src p).pump side = if side = src then p else r.pump side := by
  simp [setPump, Function.update_apply]

/-- A step as the watchdog sees it: how it has come to where it is. -/
structure Watched (cfg : RelayConfig) (r r' : Relay) : Prop where
  waiting : ∀ since, r'.watchdog = .waiting since → r.watchdog = .waiting since ∨
    ∃ last time, r.watchdog = .loaded last time ∧ r.now < last + cfg.idle ∧ since = r.now
  loaded : ∀ last time, r'.watchdog = .loaded last time → r.watchdog = .loaded last time ∨
    ∃ since, r.watchdog = .waiting since ∧ last = r.lastNanos ∧ time = r.now
  expired : r'.expired = true → r.expired = true ∨
    ∃ last time, r.watchdog = .loaded last time ∧ last + cfg.idle ≤ r.now
  done : r'.watchdog = .done → r.watchdog = .done ∨ r.main ≠ .waiting ∨ r.teardown = .complete

theorem Step.watched (h : Step cfg r r') : Watched cfg r r' := by
  cases h with
  | clock | closeClient | closeUpstream | join =>
      exact ⟨fun _ => .inl, fun _ _ => .inl, .inl, .inl⟩
  | pump src =>
      exact ⟨fun _ h => .inl (by simpa [setPump] using h), fun _ _ h => .inl (by simpa [setPump] using h),
        fun h => .inl (by simpa [setPump] using h), fun h => .inl (by simpa [setPump] using h)⟩
  | leave who _ hover =>
      cases who with
      | pump | main => exact ⟨fun _ => .inl, fun _ _ => .inl, .inl, .inl⟩
      | watchdog => exact ⟨nofun, nofun, .inl, fun _ => .inr (.inr hover)⟩
  | load hpc =>
      refine ⟨nofun, fun last time h => ?_, .inl, nofun⟩
      cases h
      exact .inr ⟨_, hpc, rfl, rfl⟩
  | calm hpc hcalm =>
      refine ⟨fun since h => ?_, nofun, .inl, nofun⟩
      cases h
      exact .inr ⟨_, _, hpc, hcalm, rfl⟩
  | expire hpc hidle => exact ⟨nofun, nofun, fun _ => .inr ⟨_, _, hpc, hidle⟩, nofun⟩
  | dismiss hpc hmain => exact ⟨nofun, nofun, .inl, fun _ => .inr (.inl hmain)⟩

theorem clocked_start (t : Nat) : (start cfg t).Clocked δ where
  heard := Nat.le_refl _
  last := Nat.le_add_right _ _
  pending _ _ h := by cases h
  storing _ _ _ _ _ h := by cases h

theorem Clocked.pump (h : r.Clocked δ) (hprompt : r.Prompt cfg δ)
    (hstep : Pump.Step srcOpen dstOpen halfCloses r.now (r.pump src) e p) :
    ((r.apply e).setPump src p).Clocked δ := by
  -- whatever the effect, what has been heard only gets later
  have hheard : r.heard ≤ ((r.apply e).setPump src p).heard := by
    cases e with
    | hear => exact h.heard
    | quiet | store => exact Nat.le_refl _
  refine ⟨?_, ?_, fun side heard hpending => ?_, fun side b last heard time hpc => ?_⟩
  · cases e with
    | hear => exact Nat.le_refl _
    | quiet | store => exact h.heard
  · rcases hstep.pending with ⟨rfl, -⟩ | ⟨b, last, heard, time, rfl, hpc, -⟩ | ⟨rfl, -⟩
    · exact h.last.trans (Nat.add_le_add_right hheard δ)
    · have hpending := h.pending src heard (by rw [hpc]; rfl)
      exact (h.storing src _ _ _ _ hpc).2.trans (Nat.add_le_add_right hpending δ)
    · exact h.last
  · rw [pump_setPump] at hpending
    split at hpending
    · rcases hstep.pending with ⟨rfl, -, hnow⟩ | ⟨_, _, _, _, -, -, hnone⟩ | ⟨-, hsame⟩
      · rw [hnow] at hpending
        cases hpending
        exact Nat.le_refl _
      · rw [hnone] at hpending
        cases hpending
      · exact (h.pending src heard (hsame ▸ hpending)).trans hheard
    · exact (h.pending side heard hpending).trans hheard
  · rw [pump_setPump] at hpc
    split at hpc
    · obtain ⟨hpending, rfl⟩ := hstep.storing hpc
      exact ⟨(h.pending src heard hpending).trans h.heard, hprompt.pumps src heard hpending⟩
    · exact h.storing side b last heard time hpc

theorem Clocked.step (h : r.Clocked δ) (hprompt : r.Prompt cfg δ) (hstep : Step cfg r r') : r'.Clocked δ := by
  rcases hstep.pump_or_aside with ⟨src, e, p, hpump, rfl⟩ | haside
  · exact h.pump hprompt hpump
  · refine ⟨haside.heard ▸ h.heard.trans haside.now, by rw [haside.last, haside.heard]; exact h.last,
      fun src heard hpending => haside.heard ▸ h.pending src heard (haside.pending src ▸ hpending),
      fun src b last heard time hpc => ?_⟩
    rcases haside.pump src with hsame | ⟨-, hdone⟩
    · exact h.storing src b last heard time (hsame ▸ hpc)
    · rw [hdone] at hpc
      cases hpc

/-- The time that is stored is not far behind, unless a pump is about to store a later one. -/
def Recent (quiet δ : Nat) (r : Relay) : Prop :=
  ((∀ src, (r.pump src).pc.pending = none) ∧ r.heard ≤ r.lastNanos + δ) ∨
    ∃ src heard, (r.pump src).pc.pending = some heard ∧ heard ≤ r.lastNanos + quiet + δ

/-- A busy connection, as the watchdog finds it. -/
structure Lively (quiet δ : Nat) (r : Relay) : Prop where
  clocked : r.Clocked δ
  recent : r.Recent quiet δ
  loaded : ∀ last time, r.watchdog = .loaded last time → time ≤ last + quiet + 2 * δ
  spared : r.expired = false

theorem lively_start (t : Nat) : (start cfg t).Lively quiet δ where
  clocked := clocked_start t
  recent := .inl ⟨fun _ => rfl, Nat.le_add_right _ _⟩
  loaded last time h := by
    simp only [start] at h
    split at h <;> cases h
  spared := rfl

theorem Lively.now_le (h : r.Lively quiet δ) (hprompt : r.Prompt cfg δ) (hbusy : r.Busy quiet) :
    r.now ≤ r.lastNanos + quiet + 2 * δ := by
  unfold Busy at hbusy
  rcases h.recent with ⟨-, hheard⟩ | ⟨src, heard, hpending, hheard⟩
  · omega
  · have hnow := hprompt.pumps src heard hpending
    omega

theorem Lively.pump (h : r.Lively quiet δ) (hprompt : r.Prompt cfg δ) (hbusy : r.Busy quiet)
    (hstep : Pump.Step srcOpen dstOpen halfCloses r.now (r.pump src) e p) :
    ((r.apply e).setPump src p).Recent quiet δ := by
  simp only [Recent, pump_setPump]
  rcases hstep.pending with ⟨rfl, hnone, hnow⟩ | ⟨b, last, heard, time, rfl, hpc, hnone⟩ | ⟨rfl, hsame⟩
  · rcases h.recent with ⟨-, hheard⟩ | ⟨side, heard, hpending, hheard⟩
    · exact .inr ⟨src, r.now, by simpa using hnow, by simp [setPump, apply]; unfold Busy at hbusy; omega⟩
    · have hside : side ≠ src := by
        rintro rfl
        rw [hnone] at hpending
        cases hpending
      exact .inr ⟨side, heard, by simpa [hside] using hpending, hheard⟩
  · -- the time that is stored is that of a read within the last δ
    have hnow : r.now ≤ time + δ := by
      have hheard := hprompt.pumps src heard (by rw [hpc]; rfl)
      have htime := (h.clocked.storing src b last heard time hpc).1
      omega
    by_cases hall : ∀ side, (if side = src then p else r.pump side).pc.pending = none
    · exact .inl ⟨hall, h.clocked.heard.trans hnow⟩
    · obtain ⟨side, hside⟩ := not_forall.mp hall
      obtain ⟨heard', hheard'⟩ := Option.ne_none_iff_exists'.mp hside
      refine .inr ⟨side, heard', hheard', ?_⟩
      have hpending : (r.pump side).pc.pending = some heard' := by
        split at hheard'
        · rw [hnone] at hheard'
          cases hheard'
        · exact hheard'
      have hle := (h.clocked.pending side heard' hpending).trans (h.clocked.heard.trans hnow)
      exact hle.trans (by simp [setPump, apply])
  · have hpending : ∀ side, (if side = src then p else r.pump side).pc.pending = (r.pump side).pc.pending := by
      intro side
      split
      · subst side
        exact hsame
      · rfl
    simp only [hpending]
    exact h.recent

theorem Lively.step (h : r.Lively quiet δ) (hprompt : r.Prompt cfg δ) (hbusy : r.Busy quiet)
    (hidle : quiet + 3 * δ < cfg.idle) (hstep : Step cfg r r') : r'.Lively quiet δ := by
  refine ⟨h.clocked.step hprompt hstep, ?_, fun last time hpc => ?_, ?_⟩
  · rcases hstep.pump_or_aside with ⟨src, e, p, hpump, rfl⟩ | haside
    · exact h.pump hprompt hbusy hpump
    · simpa only [Recent, haside.pending, haside.heard, haside.last] using h.recent
  · rcases hstep.watched.loaded last time hpc with hsame | ⟨_, -, rfl, rfl⟩
    · exact h.loaded last time hsame
    · exact h.now_le hprompt hbusy
  · by_contra hexpired
    rcases hstep.watched.expired (by simpa using hexpired) with hsame | ⟨last, time, hpc, hlate⟩
    · rw [h.spared] at hsame
      cases hsame
    · have hloaded := h.loaded last time hpc
      have hlook := hprompt.look last time hpc
      omega

theorem heard_le_of_step (h : r.Clocked δ) (hstep : Step cfg r r') : r.heard ≤ r'.heard := by
  rcases hstep.pump_or_aside with ⟨src, e, p, -, rfl⟩ | haside
  · cases e with
    | hear => exact h.heard
    | quiet | store => exact Nat.le_refl _
  · exact haside.heard.ge

theorem Step.main_ne (h : Step cfg r r') (hmain : r.main ≠ .waiting) : r'.main ≠ .waiting := by
  cases h with
  | pump => simpa [setPump] using hmain
  | leave who =>
      cases who with
      | pump | watchdog => exact hmain
      | main => simp [Relay.leave]
  | join => simp
  | _ => exact hmain

/-- A watchdog on its rounds.  It goes on only behind octets that are not older than the idle
window, and has ended with the relay. -/
structure Attended (cfg : RelayConfig) (δ : Nat) (r : Relay) : Prop where
  clocked : r.Clocked δ
  waiting : ∀ since, r.watchdog = .waiting since → since < r.heard + cfg.idle + δ
  loaded : ∀ last time, r.watchdog = .loaded last time →
    last ≤ r.heard + δ ∧ time < r.heard + cfg.idle + cfg.tick + 2 * δ
  done : r.watchdog = .done → r.main ≠ .waiting ∨ r.teardown = .complete

theorem attended_start (t : Nat) (hidle : 0 < cfg.idle) : (start cfg t).Attended cfg δ := by
  refine ⟨clocked_start t, fun since h => ?_, fun last time h => ?_, fun h => ?_⟩
  · simp only [start, hidle, if_true] at h ⊢
    cases h
    omega
  · simp only [start, hidle, if_true] at h
    cases h
  · simp only [start, hidle, if_true] at h
    cases h

theorem Attended.step (h : r.Attended cfg δ) (hprompt : r.Prompt cfg δ) (hstep : Step cfg r r') :
    r'.Attended cfg δ := by
  have hheard := heard_le_of_step h.clocked hstep
  refine ⟨h.clocked.step hprompt hstep, fun since hpc => ?_, fun last time hpc => ?_, fun hpc => ?_⟩
  · rcases hstep.watched.waiting since hpc with hsame | ⟨last, time, hloaded, hcalm, rfl⟩
    · exact (h.waiting since hsame).trans_le (by omega)
    · have hlast := (h.loaded last time hloaded).1
      omega
  · rcases hstep.watched.loaded last time hpc with hsame | ⟨since, hwaiting, rfl, rfl⟩
    · have hloaded := h.loaded last time hsame
      omega
    · have hsince := h.waiting since hwaiting
      have htick := hprompt.tick since hwaiting
      have hlast := h.clocked.last
      omega
  · rcases hstep.watched.done hpc with hdone | hmain | hover
    · exact (h.done hdone).imp hstep.main_ne (fun hover => (left_le_of_step hover hstep).1)
    · exact .inl (hstep.main_ne hmain)
    · exact .inr (left_le_of_step hover hstep).1

/-- What every step keeps from a state with a property is kept by the runs all of whose
states have it. -/
theorem StepsIn.invariant (h : StepsIn cfg P r r') (hstep : ∀ r r', P r → Step cfg r r' → Q r → Q r')
    (hr : Q r) : Q r' := by
  induction h with
  | refl => exact hr
  | tail _ hlast ih => exact hstep _ _ hlast.1 hlast.2.1 ih

theorem StepsIn.last (h : StepsIn cfg P r r') (hr : P r) : P r' := by
  cases h with
  | refl => exact hr
  | tail _ hlast => exact hlast.2.2

theorem prompt_start (t : Nat) : (start cfg t).Prompt cfg δ where
  pumps _ _ h := by cases h
  tick since h := by
    simp only [start] at h ⊢
    split at h
    · cases h
      omega
    · cases h
  look last time h := by
    simp only [start] at h
    split at h <;> cases h

end Relay

end

/-- The watchdog spares a connection that is in use.  If one side or the other sends
something every `quiet` nanoseconds, and this is shorter than the idle window by three times
the delay of the scheduler, the watchdog never finds the connection idle: however the two
pumps and the watchdog take turns, and although the time of one pump may be stored over a
later one of the other. -/
theorem watchdog_spares_busy (cfg : RelayConfig) (quiet δ t : Nat) (hidle : quiet + 3 * δ < cfg.idle)
    {r : Relay} (hrun : Relay.StepsIn cfg (fun r => r.Prompt cfg δ ∧ r.Busy quiet) (Relay.start cfg t) r) :
    r.expired = false := by
  have h := hrun.invariant (fun _ _ hr hstep h => Relay.Lively.step h hr.1 hr.2 hidle hstep)
    (Relay.lively_start t)
  exact h.spared

theorem watchdog_spares_busy_sample :
    ∃ r, Relay.StepsIn sampleRelay (fun r => r.Prompt sampleRelay 0 ∧ r.Busy 900000000)
      (Relay.start sampleRelay 0) r ∧ r.now = 900000000 ∧ r.expired = false := by
  have hstart : (Relay.start sampleRelay 0).Prompt sampleRelay 0 := Relay.prompt_start 0
  have hlater : Relay.Prompt sampleRelay 0 { Relay.start sampleRelay 0 with now := 900000000 } := by
    refine ⟨nofun, ?_, nofun⟩
    rintro _ ⟨⟩
    decide
  have hrun : Relay.StepsIn sampleRelay (fun r => r.Prompt sampleRelay 0 ∧ r.Busy 900000000)
      (Relay.start sampleRelay 0) { Relay.start sampleRelay 0 with now := 900000000 } :=
    Relation.ReflTransGen.single
      ⟨⟨hstart, by unfold Relay.Busy; decide⟩, .clock _ (by decide), hlater, by unfold Relay.Busy; decide⟩
  exact ⟨_, hrun, rfl, watchdog_spares_busy sampleRelay 900000000 0 0 (by decide) hrun⟩

/-- The watchdog ends a connection that is not in use.  When nothing has been read for the
idle window, a tick and three times the delay of the scheduler, it is closing the
connections, or they have been closed, or both pumps had ended before. -/
theorem watchdog_ends_idle (cfg : RelayConfig) (δ t : Nat) (hidle : 0 < cfg.idle) {r : Relay}
    (hrun : Relay.StepsIn cfg (Relay.Prompt cfg δ) (Relay.start cfg t) r)
    (hquiet : r.heard + cfg.idle + cfg.tick + 3 * δ ≤ r.now) :
    r.watchdog = .stopping ∨ r.teardown = .complete ∨ ∀ src, (r.pump src).pc = .done := by
  have h := hrun.invariant (fun _ _ hr hstep h => Relay.Attended.step h hr hstep) (Relay.attended_start t hidle)
  have hsound := hrun.invariant (fun _ _ _ hstep h => Relay.Sound.step h hstep) Relay.sound_start
  have hprompt := hrun.last (Relay.prompt_start t)
  cases hpc : r.watchdog with
  | waiting since =>
      have hsince := h.waiting since hpc
      have htick := hprompt.tick since hpc
      omega
  | loaded last time =>
      have hloaded := (h.loaded last time hpc).2
      have hlook := hprompt.look last time hpc
      omega
  | stopping => exact .inl rfl
  | done => exact .inr ((h.done hpc).symm.imp_right hsound.joined)

/-- The watchdog finds the connection idle at its first tick. -/
theorem sampleRelay_idle :
    ∃ r, Relay.StepsIn sampleRelay (Relay.Prompt sampleRelay 0) (Relay.start sampleRelay 0) r ∧
      r.heard = 0 ∧ r.now = 2000000000 := by
  have hstart : (Relay.start sampleRelay 0).Prompt sampleRelay 0 := Relay.prompt_start 0
  have htick : Relay.Prompt sampleRelay 0 { Relay.start sampleRelay 0 with now := 1000000000 } := by
    refine ⟨nofun, ?_, nofun⟩
    rintro _ ⟨⟩
    decide
  have hlook : Relay.Prompt sampleRelay 0
      { Relay.start sampleRelay 0 with now := 1000000000, watchdog := .loaded 0 1000000000 } := by
    refine ⟨nofun, nofun, ?_⟩
    rintro _ _ ⟨⟩
    decide
  have hstop (now : Nat) : Relay.Prompt sampleRelay 0
      { Relay.start sampleRelay 0 with now, watchdog := .stopping, expired := true } := ⟨nofun, nofun, nofun⟩
  exact ⟨_, Relation.ReflTransGen.refl
    |>.tail ⟨hstart, .clock _ (by decide), htick⟩
    |>.tail ⟨htick, .load rfl, hlook⟩
    |>.tail ⟨hlook, .expire rfl (by decide), hstop _⟩
    |>.tail ⟨hstop _, .clock 2000000000 (by decide), hstop _⟩, rfl, rfl⟩

theorem watchdog_ends_idle_sample :
    ∃ r, Relay.StepsIn sampleRelay (Relay.Prompt sampleRelay 0) (Relay.start sampleRelay 0) r ∧
      (r.watchdog = .stopping ∨ r.teardown = .complete ∨ ∀ src, (r.pump src).pc = .done) := by
  obtain ⟨r, hrun, hheard, hnow⟩ := sampleRelay_idle
  refine ⟨r, hrun, watchdog_ends_idle sampleRelay 0 0 (by decide) hrun ?_⟩
  rw [hheard, hnow]
  decide

end GoIpsec.Socks
