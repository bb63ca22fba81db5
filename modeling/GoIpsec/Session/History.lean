import GoIpsec.Session.Driver

/-!
# Runs and their histories

A run of the control loop starts from an established session and takes one turn after
the other.  What happened in it is read off the log.

The log does not name the IKE SA an event belongs to.  It is told by the cutovers
before the event: the current IKE SA is known by the sequence of cutovers that led to
it (`lineage`), and the superseded one by that sequence without the last.
-/

set_option linter.dupNamespace false

namespace GoIpsec.Session

open Golang Ikemsg Ikesa

/-! ## Requests of the peer -/

/-- A request of the peer: the IKE SA it was decoded under, and its Message ID. -/
abbrev RequestKey := Lineage × UInt32

/-- A Child SA install, an IKE cutover, or the start of a Child SA exchange of ours. -/
def Event.isEffect : Event → Bool
  | .install _ _ _ _ => true
  | .cutover _ _ _ => true
  | .started _ => true
  | _ => false

/-- Whether a request is being processed. -/
def processing : List Event → Bool
  | [] => false
  | .handling _ _ :: _ => true
  | .handled :: _ => false
  | _ :: log => processing log

/-- Count one more effect of the request taken up last. -/
def bump : List (RequestKey × Nat) → List (RequestKey × Nat)
  | [] => []
  | (k, n) :: rs => (k, n + 1) :: rs

/-- The requests that were taken up, newest first, each with the number of effects
between then and the end of its processing. -/
def requests : List Event → List (RequestKey × Nat)
  | [] => []
  | .handling slot msgID :: log => (((lineage log).at slot, msgID), 0) :: requests log
  | e :: log => if e.isEffect && processing log then bump (requests log) else requests log

theorem requests_effect {e : Event} {log : List Event} (he : e.isEffect = true) :
    requests (e :: log) = if processing log then bump (requests log) else requests log := by
  cases e with
  | install | cutover | started => rfl
  | _ => cases he

/-- The responses, newest first, each with the request it answers. -/
def answers : List Event → List (RequestKey × Bytes)
  | [] => []
  | .answered slot msgID raw :: log => (((lineage log).at slot, msgID), raw) :: answers log
  | _ :: log => answers log

/-- The Child SAs that were installed, newest first. -/
def updates : List Event → List ChildSAUpdate
  | [] => []
  | .install _ _ _ u :: log => u :: updates log
  | _ :: log => updates log

@[simp] theorem map_fst_bump (rs : List (RequestKey × Nat)) :
    (bump rs).map Prod.fst = rs.map Prod.fst := by
  cases rs with
  | nil => rfl
  | cons q rs => rfl

/-! ## Runs -/

/-- The session when the control loop starts: established, with a data plane, and with
no exchange of either end yet. -/
structure Established (s : Session) : Prop where
  dataPlane : s.dataPlane = true
  child : s.child.isSome = true
  pending : s.pending = none
  oldIKE : s.oldIKE = none
  peer : s.peer = {}
  oldPeer : s.oldPeer = {}
  flag : s.childReestablish = false

/-- The first state of a run. -/
def Starts (d : Drive) : Prop :=
  ∃ env s, Established s ∧ d = (driverStart env { s }).2

/-- The runs of the control loop in which every turn meets `P`, by the state they have
reached and whether the loop has ended. -/
inductive Run (c : Crypto) (P : Env → Drive → Input → Prop) : Drive → Bool → Prop
  | start {d : Drive} (h : Starts d) : Run c P d false
  | turn {d d' : Drive} {fin : Bool} (env : Env) (input : Input) (h : Run c P d false)
      (hP : P env d input) (hstep : driverStep c env input d = (.ok fin, d')) : Run c P d' fin

/-- The machine when the control loop starts. -/
structure Machine.Fresh (m : Machine) : Prop where
  dataPlane : m.dataPlane = true
  child : m.child.isSome = true
  pending : m.pending = none
  old : m.old = none
  peer : m.peer = {}
  oldPeer : m.oldPeer = {}
  flag : m.reestablish = false
  log : ∃ ctx : IkeCtx, m.log = [.established ctx] ∧ ctx.keys = m.ike
  msg : m.msg = none
  opened : m.opened = false
  busy : m.busy = false

theorem Starts.fresh {d : Drive} (h : Starts d) : (d.view {}).Fresh := by
  obtain ⟨env, s, hs, rfl⟩ := h
  unfold driverStart
  rw [run_setSession_bind, run_session_bind, run_emit_bind]
  obtain ⟨t₁, d₁, hx₁, hs₁, hlog₁⟩ := jitteredDeadline_ok env _ _ _
  rw [Proc.bind_of_ok hx₁]
  obtain ⟨t₂, d₂, hx₂, hs₂, hlog₂⟩ := jitteredDeadline_ok env _ _ d₁
  rw [Proc.bind_of_ok hx₂]
  have hd₂ := hs₂.trans hs₁
  constructor
  all_goals simp only [setSession, Drive.view, hd₂, hlog₂.trans hlog₁]
  case dataPlane => exact hs.dataPlane
  case child => exact hs.child
  case pending => rw [hs.pending]; rfl
  case old => rw [hs.oldIKE]; rfl
  case peer => exact hs.peer
  case oldPeer => exact hs.oldPeer
  case flag => rw [hs.flag]; rfl
  case log => exact ⟨_, rfl, rfl⟩

variable {c : Crypto} {r : Rules} {P : Env → Drive → Input → Prop}

theorem Move.dataPlane {m m' : Machine} (h : Move c r m m') : m'.dataPlane = m.dataPlane := by
  cases h <;> rfl

/-- The log only grows. -/
theorem Move.log_suffix {m m' : Machine} (h : Move c r m m') : m.log <:+ m'.log := by
  cases h <;> first | exact List.suffix_rfl | exact List.suffix_append _ _

/-- What every move keeps holds after a turn. -/
theorem driverStep_invariant {d d' : Drive} {env : Env} {input : Input} {fin : Bool}
    {Inv : Machine → Prop} (hmove : ∀ m m', Inv m → Move c r m m' → Inv m') (hd : Inv (d.view {}))
    (hdp : d.s.dataPlane = true) (hadmitted : input.Admitted c env r d)
    (hstep : driverStep c env input d = (.ok fin, d')) :
    Inv (d'.view {}) ∧ d'.s.dataPlane = true := by
  obtain ⟨h', hrun, hend⟩ := driverStep_sim hdp hadmitted
  rw [hstep] at hrun hend
  obtain rfl : h' = {} := hend
  exact Relation.ReflTransGen.rec (motive := fun m _ => Inv m ∧ m.dataPlane = true) ⟨hd, hdp⟩
    (fun _ hstep ihm => ⟨hmove _ _ ihm.1 hstep, hstep.dataPlane.trans ihm.2⟩) hrun

/-- What holds at the start and is kept by every move holds after every turn. -/
theorem Run.invariant {d : Drive} {fin : Bool} (h : Run c P d fin) (Inv : Machine → Prop)
    (hstart : ∀ m : Machine, m.Fresh → Inv m) (hmove : ∀ m m', Inv m → Move c r m m' → Inv m')
    (hP : ∀ env d input, P env d input → input.Admitted c env r d) :
    Inv (d.view {}) ∧ d.s.dataPlane = true := by
  induction h with
  | start h => exact ⟨hstart _ h.fresh, h.fresh.dataPlane⟩
  | @turn d d' fin env input _ hPd hstep ih =>
      exact driverStep_invariant hmove ih.1 ih.2 (hP env d input hPd) hstep

/-- A turn of a run: the state it met, its input and the answers of the outside. -/
structure Turn where
  env : Env
  d : Drive
  input : Input

/-- The runs from a given state, with their turns, newest first. -/
inductive Reaches (c : Crypto) (d₀ : Drive) : List Turn → Drive → Bool → Prop
  | refl : Reaches c d₀ [] d₀ false
  | turn {ts : List Turn} {d d' : Drive} {fin : Bool} (env : Env) (input : Input)
      (h : Reaches c d₀ ts d false) (hstep : driverStep c env input d = (.ok fin, d')) :
      Reaches c d₀ ({ env, d, input } :: ts) d' fin

theorem Reaches.invariant {d₀ d : Drive} {ts : List Turn} {fin : Bool} (h : Reaches c d₀ ts d fin)
    (Inv : Machine → Prop) (hstart : Inv (d₀.view {})) (hdp : d₀.s.dataPlane = true)
    (hmove : ∀ m m', Inv m → Move c r m m' → Inv m')
    (hts : ∀ t ∈ ts, t.input.Admitted c t.env r t.d) :
    Inv (d.view {}) ∧ d.s.dataPlane = true := by
  induction h with
  | refl => exact ⟨hstart, hdp⟩
  | @turn ts d d' fin env input _ hstep ih =>
      obtain ⟨hd, hdp⟩ := ih fun t ht => hts t (List.mem_cons_of_mem _ ht)
      exact driverStep_invariant hmove hd hdp (hts _ List.mem_cons_self) hstep

/-! ## A sample session -/

/-- A session between the two ends of `sampleSA`, with one Child SA. -/
def sampleSession (role : Role) : Session where
  cfg := {}
  initiatorSPI := 1
  responderSPI := 2
  ikeSA := sampleSA role
  messageID := 2
  child := some { initiatorSPI := 0x11, responderSPI := 0x22, suite := .aesGCM256,
                  keys := { encrIR := [], integIR := [], encrRI := [], integRI := [] } }
  nattMode := true
  dataPlane := true
  childPFS := false
  ikeDHGroup := dhX25519

/-- A turn at time `t`, in which nothing fails and the nth random read gives the octet
`n`. -/
def sampleEnv (t : Time) : Env where
  clock _ := t
  wall := t
  rand n := some fun _ => UInt8.ofNat n
  scaling := .exact
  sendOK _ := true
  lastDataInbound := 0
  childSAVolume := 0

theorem established_sampleSession (role : Role) : Established (sampleSession role) := by
  constructor <;> rfl

def sampleStart (role : Role) : Drive := (driverStart (sampleEnv 1) { s := sampleSession role }).2

/-- The state after a turn in which a datagram comes in. -/
def receiving (t : Time) (raw : Bytes) (d : Drive) : Drive :=
  (driverStep Crypto.sample (sampleEnv t) (.datagram raw) d).2

theorem Run.receiving {P : Env → Drive → Input → Prop} {d : Drive} {t : Time} {raw : Bytes}
    (h : Run Crypto.sample P d false) (hP : P (sampleEnv t) d (.datagram raw))
    (hok : (driverStep Crypto.sample (sampleEnv t) (.datagram raw) d).1 = .ok false) :
    Run Crypto.sample P (receiving t raw d) false :=
  .turn (sampleEnv t) (.datagram raw) h hP (Prod.ext hok rfl)

theorem Reaches.receiving {d₀ d : Drive} {ts : List Turn} {t : Time} {raw : Bytes}
    (h : Reaches Crypto.sample d₀ ts d false)
    (hok : (driverStep Crypto.sample (sampleEnv t) (.datagram raw) d).1 = .ok false) :
    Reaches Crypto.sample d₀ ({ env := sampleEnv t, d, input := .datagram raw } :: ts)
      (Session.receiving t raw d) false :=
  .turn (sampleEnv t) (.datagram raw) h (Prod.ext hok rfl)

theorem starts_sampleStart (role : Role) : Starts (sampleStart role) :=
  ⟨sampleEnv 1, sampleSession role, established_sampleSession role, rfl⟩

/-- The state after a tick. -/
def ticking (t : Time) (d : Drive) : Drive := (driverStep Crypto.sample (sampleEnv t) .tick d).2

theorem Run.ticking {P : Env → Drive → Input → Prop} {d : Drive} {t : Time}
    (h : Run Crypto.sample P d false) (hP : P (sampleEnv t) d .tick)
    (hok : (driverStep Crypto.sample (sampleEnv t) .tick d).1 = .ok false) :
    Run Crypto.sample P (Session.ticking t d) false :=
  .turn (sampleEnv t) .tick h hP (Prod.ext hok rfl)

theorem Reaches.ticking {d₀ d : Drive} {ts : List Turn} {t : Time}
    (h : Reaches Crypto.sample d₀ ts d false)
    (hok : (driverStep Crypto.sample (sampleEnv t) .tick d).1 = .ok false) :
    Reaches Crypto.sample d₀ ({ env := sampleEnv t, d, input := .tick } :: ts)
      (Session.ticking t d) false :=
  .turn (sampleEnv t) .tick h (Prod.ext hok rfl)

/-- Whether the control loop goes on through all of these inputs. -/
def goesOn : List (Time × Input) → Drive → Bool
  | [], _ => true
  | (t, input) :: rest, d =>
      let step := driverStep Crypto.sample (sampleEnv t) input d
      decide (step.1 = .ok false) && goesOn rest step.2

theorem goesOn_cons {t : Time} {input : Input} {rest : List (Time × Input)} {d : Drive} :
    goesOn ((t, input) :: rest) d = true ↔
      (driverStep Crypto.sample (sampleEnv t) input d).1 = .ok false ∧
        goesOn rest (driverStep Crypto.sample (sampleEnv t) input d).2 = true := by
  simp [goesOn]

/-- A key pair of the peer. -/
def sampleKey : DH where
  priv := .x25519 (List.replicate 32 9)
  pub := List.replicate 32 9

/-- The peer asks for a new IKE SA. -/
def sampleIKERekey : Payloads :=
  ikeRekeyRequest ikeSuites (putUint64 0x88) (List.replicate 32 8) sampleKey

/-- The peer deletes the Child SA of `sampleSession`. -/
def sampleDelete (msgID : UInt32) : Bytes :=
  fromResponder exchangeInformational 0 msgID
    [.delete { protocol := protocolESP, spis := [putUint32 0x22] }]

/-- The Child SA is deleted, and the exchange that replaces it is started. -/
def sampleDeleted : Drive := receiving 2 (sampleDelete 0) (sampleStart .initiator)

theorem run_sampleDeleted {P : Env → Drive → Input → Prop}
    (hP : P (sampleEnv 2) (sampleStart .initiator) (.datagram (sampleDelete 0))) :
    Run Crypto.sample P sampleDeleted false :=
  (Run.start (starts_sampleStart .initiator)).receiving hP (by decide +kernel)

end GoIpsec.Session
