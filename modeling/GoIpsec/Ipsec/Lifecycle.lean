import Mathlib.Data.List.Basic
import Mathlib.Logic.Function.Basic
import Mathlib.Logic.Relation

/-!
# The goroutines of a client

Who runs at the same time in a client, and what they do to the parts they share: the
goroutine of `Dial` that starts the first workers, the supervisor that reconnects, the
workers of each generation, the callers of `Close` and those of `netstack`.  Each has a
program counter, and a step is one of theirs.  The steps of different goroutines may be
interleaved in any way.

A session is known by its number among those that were dialled, a worker manager by that
of its generation, and a netstack by its number among those that were built.  The contents
of a session and the data plane are in other modules.  What the outside decides is left
open: whether a dial succeeds, when a worker returns or panics, whether an SA can be built.
-/

set_option linter.dupNamespace false

namespace GoIpsec.Ipsec

/-- The part of the configuration that decides who runs. -/
structure Setup where
  autoReconnect : Bool
  keepAlive : Bool

def sampleSetup : Setup := { autoReconnect := true, keepAlive := false }

inductive Worker where
  | rxDemux
  | ikeDriver
  | natKeepalive
deriving Repr, DecidableEq

/-- The workers of a generation, in the order in which they are started. -/
def Setup.workers (cfg : Setup) : List Worker :=
  [.rxDemux, .ikeDriver] ++ if cfg.keepAlive then [.natKeepalive] else []

/-- How far a worker is that has been started. -/
inductive Phase where
  | running
  /-- The driver has called `onDead` and is to return. -/
  | dying
  /-- Its panic is recovered, and the panic handler is to be called. -/
  | panicked
  /-- The panic handler has been called, and the manager is to be shut down. -/
  | recovered
  /-- It has returned, and the manager is to be told. -/
  | returned
deriving Repr, DecidableEq

/-- A worker manager. -/
structure Manager where
  shutdown : Bool := false
  /-- The workers it waits for. -/
  workers : Worker → Option Phase := fun _ => none

/-- All workers it waits for have returned. -/
def Manager.Idle (m : Manager) : Prop := ∀ w, m.workers w = none

/-- A `sync.Once`. -/
inductive Once where
  | fresh
  | running
  | done
deriving Repr, DecidableEq

/-- The goroutine of `Dial`, from the start of the workers on. -/
inductive DialPc where
  | launching
  | starting (m : Nat) (ws : List Worker)
  | returned
deriving Repr, DecidableEq

/-- The supervisor, in `supervise` and in the parts of `reconnect`. -/
inductive SupPc where
  | waiting
  /-- A signal has been received. -/
  | entered
  | stopping (m : Option Nat)
  | joining (m : Option Nat)
  | closing
  /-- At the top of the loop of `redialWithBackoff`. -/
  | redialing
  | dialing
  | failed
  | sleeping
  | dialled (s : Nat)
  /-- The SA of the session could not be built. -/
  | abandoning (s : Nat)
  | rearming
  | launching
  | starting (m : Nat) (ws : List Worker)
  | exited
deriving Repr, DecidableEq

/-- A call of `Close`. -/
inductive ClosePc where
  | idle
  | entered
  | marking
  | cancelling
  | waiting
  | reading
  | stopping (m : Option Nat)
  | joining (m : Option Nat)
  | looking
  | closingNet (n : Option Nat)
  | closingTun
  | closingSession
  | leaving
  | returned
deriving Repr, DecidableEq

inductive NetResult where
  | errClosed
  | other (n : Option Nat)
deriving Repr, DecidableEq

/-- A call of `netstack`. -/
inductive NetPc where
  | idle
  | entered
  | building
  /-- `tun2net.New` has returned a stack, or none. -/
  | built (n : Option Nat)
  /-- The client was found closed. -/
  | discarding (n : Option Nat)
  | checking
  | returned (r : NetResult)
deriving Repr, DecidableEq

/-- What the goroutines share, and where each of them is.  `ι` are the calls of `Close` and
`κ` those of `netstack`. -/
structure Runtime (ι κ : Type) where
  closed : Bool := false
  /-- `superCtx` is cancelled. -/
  cancelled : Bool := false
  /-- The signal in the channel, with the generation that raised it. -/
  deathSig : Option Nat := none
  /-- Without a supervisor a death starts a call of `Close`. -/
  spawned : Bool := false
  mgrs : Nat → Manager := fun _ => {}
  /-- The number of managers made. -/
  generations : Nat := 0
  /-- `c.mgr`. -/
  mgr : Option Nat := none
  session : Nat := 0
  /-- The number of sessions dialled. -/
  sessions : Nat := 1
  closedSessions : List Nat := []
  closeOnce : Once := .fresh
  netOnce : Once := .fresh
  net : Option Nat := none
  /-- The number of netstacks built. -/
  netstacks : Nat := 0
  closedStacks : List Nat := []
  dial : DialPc := .launching
  sup : SupPc
  closers : ι → ClosePc := fun _ => .idle
  nets : κ → NetPc := fun _ => .idle
  /-- The number of workers started so far. -/
  started : Nat := 0
  /-- The number of sessions stored by reconnects. -/
  stores : Nat := 0
  /-- For each reconnect, the generation whose signal it was started by and the one that
  was live then.  Newest first. -/
  reconnects : List (Nat × Option Nat) := []

namespace Runtime

variable {ι κ : Type}

/-- A client whose first session is dialled.  The supervisor is started before the
workers, if at all. -/
def start (cfg : Setup) : Runtime ι κ :=
  { sup := if cfg.autoReconnect then .waiting else .exited }

/-! ## What is done to the shared parts -/

def setMgr (x : Runtime ι κ) (m : Nat) (mgr : Manager) : Runtime ι κ :=
  { x with mgrs := Function.update x.mgrs m mgr }

def setWorker (x : Runtime ι κ) (m : Nat) (w : Worker) (p : Option Phase) : Runtime ι κ :=
  x.setMgr m { x.mgrs m with workers := Function.update (x.mgrs m).workers w p }

def shutdown (x : Runtime ι κ) (m : Nat) : Runtime ι κ :=
  x.setMgr m { x.mgrs m with shutdown := true }

/-- A manager that may be nil. -/
def shutdownMgr (x : Runtime ι κ) (m : Option Nat) : Runtime ι κ := m.elim x x.shutdown

/-- `onDead`: put a signal into the channel unless there is one, or, without a supervisor,
call `Close` from a new goroutine. -/
def onDead (cfg : Setup) (x : Runtime ι κ) (m : Nat) : Runtime ι κ :=
  { x with
    deathSig := if cfg.autoReconnect then some (x.deathSig.getD m) else x.deathSig
    spawned := x.spawned || !cfg.autoReconnect }

/-- Publish a manager for the workers of a new generation. -/
def newManager (x : Runtime ι κ) : Runtime ι κ :=
  { x.setMgr x.generations {} with mgr := some x.generations, generations := x.generations + 1 }

/-- `Manager.Go`: a manager that is shut down rejects the worker. -/
def go (x : Runtime ι κ) (m : Nat) (w : Worker) : Runtime ι κ :=
  if (x.mgrs m).shutdown then x
  else { x.setWorker m w (some .running) with started := x.started + 1 }

def closeSession (x : Runtime ι κ) (s : Nat) : Runtime ι κ :=
  { x with closedSessions := s :: x.closedSessions }

/-- A netstack that may be nil. -/
def closeStack (x : Runtime ι κ) (n : Option Nat) : Runtime ι κ :=
  { x with closedStacks := n.toList ++ x.closedStacks }

/-- All workers a manager waits for have returned.  There may be no manager. -/
def Joined (x : Runtime ι κ) (m : Option Nat) : Prop := ∀ g, m = some g → (x.mgrs g).Idle

end Runtime

/-! ## Steps -/

section

variable {ι κ : Type} [DecidableEq ι] [DecidableEq κ]

/-- A worker.  It returns when its context is cancelled, and may return before. -/
inductive WorkerStep (cfg : Setup) (m : Nat) (w : Worker) : Runtime ι κ → Runtime ι κ → Prop
  | onDead {x : Runtime ι κ} (hw : w = .ikeDriver) (h : (x.mgrs m).workers w = some .running) :
      WorkerStep cfg m w x ((x.setWorker m w (some .dying)).onDead cfg m)
  | panic {x : Runtime ι κ} {p : Phase} (h : (x.mgrs m).workers w = some p)
      (hp : p = .running ∨ p = .dying) : WorkerStep cfg m w x (x.setWorker m w (some .panicked))
  | onPanic {x : Runtime ι κ} (h : (x.mgrs m).workers w = some .panicked) :
      WorkerStep cfg m w x ((x.setWorker m w (some .recovered)).onDead cfg m)
  | recovered {x : Runtime ι κ} (h : (x.mgrs m).workers w = some .recovered) :
      WorkerStep cfg m w x ((x.setWorker m w (some .returned)).shutdown m)
  | returned {x : Runtime ι κ} {p : Phase} (h : (x.mgrs m).workers w = some p)
      (hp : p = .running ∨ p = .dying) : WorkerStep cfg m w x (x.setWorker m w (some .returned))
  | done {x : Runtime ι κ} (h : (x.mgrs m).workers w = some .returned) :
      WorkerStep cfg m w x (x.setWorker m w none)

inductive DialStep (cfg : Setup) : Runtime ι κ → Runtime ι κ → Prop
  | publish {x : Runtime ι κ} (h : x.dial = .launching) :
      DialStep cfg x { x.newManager with dial := .starting x.generations cfg.workers }
  | start {x : Runtime ι κ} {m : Nat} {w : Worker} {ws : List Worker}
      (h : x.dial = .starting m (w :: ws)) : DialStep cfg x { x.go m w with dial := .starting m ws }
  | finish {x : Runtime ι κ} {m : Nat} (h : x.dial = .starting m []) :
      DialStep cfg x { x with dial := .returned }

inductive SupStep (cfg : Setup) : Runtime ι κ → Runtime ι κ → Prop
  | exit {x : Runtime ι κ} (h : x.sup = .waiting) (hc : x.cancelled = true) :
      SupStep cfg x { x with sup := .exited }
  | receive {x : Runtime ι κ} {g : Nat} (h : x.sup = .waiting) (hsig : x.deathSig = some g) :
      SupStep cfg x { x with
        sup := .entered, deathSig := none, reconnects := (g, x.mgr) :: x.reconnects }
  | bail {x : Runtime ι κ} (h : x.sup = .entered) (hc : x.cancelled = true) :
      SupStep cfg x { x with sup := .waiting }
  | enter {x : Runtime ι κ} (h : x.sup = .entered) (hc : x.cancelled = false) :
      SupStep cfg x { x with sup := .stopping x.mgr }
  | shutdown {x : Runtime ι κ} {m : Option Nat} (h : x.sup = .stopping m) :
      SupStep cfg x { x.shutdownMgr m with sup := .joining m }
  | join {x : Runtime ι κ} {m : Option Nat} (h : x.sup = .joining m) (hm : x.Joined m) :
      SupStep cfg x { x with sup := .closing }
  | closeOld {x : Runtime ι κ} (h : x.sup = .closing) :
      SupStep cfg x { x.closeSession x.session with sup := .redialing }
  | giveUp {x : Runtime ι κ} (h : x.sup = .redialing ∨ x.sup = .failed ∨ x.sup = .sleeping)
      (hc : x.cancelled = true) : SupStep cfg x { x with sup := .waiting }
  | dial {x : Runtime ι κ} (h : x.sup = .redialing) (hc : x.cancelled = false) :
      SupStep cfg x { x with sup := .dialing }
  | dialled {x : Runtime ι κ} (h : x.sup = .dialing) :
      SupStep cfg x { x with sup := .dialled x.sessions, sessions := x.sessions + 1 }
  | dialFailed {x : Runtime ι κ} (h : x.sup = .dialing) : SupStep cfg x { x with sup := .failed }
  | sleep {x : Runtime ι κ} (h : x.sup = .failed) (hc : x.cancelled = false) :
      SupStep cfg x { x with sup := .sleeping }
  | wake {x : Runtime ι κ} (h : x.sup = .sleeping) : SupStep cfg x { x with sup := .redialing }
  | unbuildable {x : Runtime ι κ} {s : Nat} (h : x.sup = .dialled s) :
      SupStep cfg x { x with sup := .abandoning s }
  | abandon {x : Runtime ι κ} {s : Nat} (h : x.sup = .abandoning s) :
      SupStep cfg x { x.closeSession s with sup := .rearming }
  /-- The signal is raised for the generation that is still the current one. -/
  | rearm {x : Runtime ι κ} (h : x.sup = .rearming) :
      SupStep cfg x { (x.mgr.elim x fun m => x.onDead cfg m) with sup := .waiting }
  | store {x : Runtime ι κ} {s : Nat} (h : x.sup = .dialled s) :
      SupStep cfg x { x with sup := .launching, session := s, stores := x.stores + 1 }
  | publish {x : Runtime ι κ} (h : x.sup = .launching) :
      SupStep cfg x { x.newManager with sup := .starting x.generations cfg.workers }
  | start {x : Runtime ι κ} {m : Nat} {w : Worker} {ws : List Worker}
      (h : x.sup = .starting m (w :: ws)) : SupStep cfg x { x.go m w with sup := .starting m ws }
  | finish {x : Runtime ι κ} {m : Nat} (h : x.sup = .starting m []) :
      SupStep cfg x { x with sup := .waiting }

/-- A call of `Close` gets to another point. -/
def Runtime.closer (x : Runtime ι κ) (i : ι) (p : ClosePc) : Runtime ι κ :=
  { x with closers := Function.update x.closers i p }

inductive CloseStep (cfg : Setup) (i : ι) : Runtime ι κ → Runtime ι κ → Prop
  /-- The client is there for others once `Dial` has returned it. -/
  | call {x : Runtime ι κ} (h : x.closers i = .idle)
      (hclient : x.dial = .returned ∨ x.spawned = true) : CloseStep cfg i x (x.closer i .entered)
  | first {x : Runtime ι κ} (h : x.closers i = .entered) (honce : x.closeOnce = .fresh) :
      CloseStep cfg i x { x.closer i .marking with closeOnce := .running }
  | later {x : Runtime ι κ} (h : x.closers i = .entered) (honce : x.closeOnce = .done) :
      CloseStep cfg i x (x.closer i .returned)
  | mark {x : Runtime ι κ} (h : x.closers i = .marking) :
      CloseStep cfg i x { x.closer i .cancelling with closed := true }
  | cancel {x : Runtime ι κ} (h : x.closers i = .cancelling) :
      CloseStep cfg i x { x.closer i .waiting with cancelled := true }
  | joinSup {x : Runtime ι κ} (h : x.closers i = .waiting) (hsup : x.sup = .exited) :
      CloseStep cfg i x (x.closer i .reading)
  | readMgr {x : Runtime ι κ} (h : x.closers i = .reading) :
      CloseStep cfg i x (x.closer i (.stopping x.mgr))
  | shutdown {x : Runtime ι κ} {m : Option Nat} (h : x.closers i = .stopping m) :
      CloseStep cfg i x ((x.shutdownMgr m).closer i (.joining m))
  | join {x : Runtime ι κ} {m : Option Nat} (h : x.closers i = .joining m) (hm : x.Joined m) :
      CloseStep cfg i x (x.closer i .looking)
  | readNet {x : Runtime ι κ} (h : x.closers i = .looking) :
      CloseStep cfg i x (x.closer i (.closingNet x.net))
  | closeNet {x : Runtime ι κ} {n : Option Nat} (h : x.closers i = .closingNet n) :
      CloseStep cfg i x ((x.closeStack n).closer i .closingTun)
  /-- The tunnel and the grace timers. -/
  | closeTun {x : Runtime ι κ} (h : x.closers i = .closingTun) :
      CloseStep cfg i x (x.closer i .closingSession)
  | closeSession {x : Runtime ι κ} (h : x.closers i = .closingSession) :
      CloseStep cfg i x ((x.closeSession x.session).closer i .leaving)
  | leave {x : Runtime ι κ} (h : x.closers i = .leaving) :
      CloseStep cfg i x { x.closer i .returned with closeOnce := .done }

/-- A call of `netstack` gets to another point. -/
def Runtime.caller (x : Runtime ι κ) (k : κ) (p : NetPc) : Runtime ι κ :=
  { x with nets := Function.update x.nets k p }

inductive NetStep (k : κ) : Runtime ι κ → Runtime ι κ → Prop
  | call {x : Runtime ι κ} (h : x.nets k = .idle) : NetStep k x (x.caller k .entered)
  | first {x : Runtime ι κ} (h : x.nets k = .entered) (honce : x.netOnce = .fresh) :
      NetStep k x { x.caller k .building with netOnce := .running }
  | later {x : Runtime ι κ} (h : x.nets k = .entered) (honce : x.netOnce = .done) :
      NetStep k x (x.caller k .checking)
  | build {x : Runtime ι κ} (h : x.nets k = .building) :
      NetStep k x { x.caller k (.built (some x.netstacks)) with netstacks := x.netstacks + 1 }
  | buildFailed {x : Runtime ι κ} (h : x.nets k = .building) : NetStep k x (x.caller k (.built none))
  | publish {x : Runtime ι κ} {n : Option Nat} (h : x.nets k = .built n) (hopen : x.closed = false) :
      NetStep k x { x.caller k .checking with net := n, netOnce := .done }
  | refuse {x : Runtime ι κ} {n : Option Nat} (h : x.nets k = .built n) (hclosed : x.closed = true) :
      NetStep k x (x.caller k (.discarding n))
  | discard {x : Runtime ι κ} {n : Option Nat} (h : x.nets k = .discarding n) :
      NetStep k x { (x.closeStack n).caller k .checking with netOnce := .done }
  | check {x : Runtime ι κ} (h : x.nets k = .checking) :
      NetStep k x (x.caller k (.returned (if x.closed then .errClosed else .other x.net)))

/-- A step of any of the goroutines. -/
inductive RuntimeStep (cfg : Setup) : Runtime ι κ → Runtime ι κ → Prop
  | worker {x y : Runtime ι κ} (m : Nat) (w : Worker) (h : WorkerStep cfg m w x y) :
      RuntimeStep cfg x y
  | dial {x y : Runtime ι κ} (h : DialStep cfg x y) : RuntimeStep cfg x y
  | sup {x y : Runtime ι κ} (h : SupStep cfg x y) : RuntimeStep cfg x y
  | close {x y : Runtime ι κ} (i : ι) (h : CloseStep cfg i x y) : RuntimeStep cfg x y
  | net {x y : Runtime ι κ} (k : κ) (h : NetStep k x y) : RuntimeStep cfg x y

/-- The runs of a client. -/
def RuntimeSteps (cfg : Setup) : Runtime ι κ → Runtime ι κ → Prop :=
  Relation.ReflTransGen (RuntimeStep cfg)

end

end GoIpsec.Ipsec
