import GoIpsec.Lib.Registry
import GoIpsec.Esp.Packet
import GoIpsec.Session.History

/-!
# The data plane of a client

The ESP SAs of a client: the one its tunnel sends with, and the registry of those it
receives with, by their SPI.  A rekey puts a new SA in the place of the tunnel's and
leaves the superseded one in the registry for a grace period, at the end of which a
timer removes it.  A reconnect starts over with the SA of a new session.

SAs are known by their pointers, since a removal compares pointers.  A timer is either
armed, or its callback has started, and a callback that has started runs to its end even
if the timer is stopped meanwhile.  The callback has two parts, under different locks.
When a timer fires is not modelled: it may be at any time.
-/

set_option linter.dupNamespace false

namespace GoIpsec.Ipsec

open Golang Session

/-- A pointer to an ESP SA: its place among those allocated. -/
abbrev Ptr := Nat

/-- A timer for the removal of an SA from the registry. -/
structure GraceTimer where
  id : Nat
  spi : UInt32
  /-- The SA to remove. -/
  want : Option Ptr
deriving Repr, DecidableEq

structure Client where
  session : Drive
  /-- The control loop of the session has returned. -/
  stopped : Bool := false
  /-- The ESP SAs allocated so far. -/
  heap : List Esp.SA
  inbound : UInt32 → Option Ptr
  /-- The SA of the tunnel. -/
  tun : Ptr
  /-- The timers that are stopped on a reconnect. -/
  graceTimers : List Nat := []
  nextTimer : Nat := 0
  /-- The timers that have not fired. -/
  armed : List GraceTimer := []
  /-- The timers whose callback has started and not removed the SA yet. -/
  started : List GraceTimer := []
  /-- The timers whose callback has removed the SA and not ended yet. -/
  ending : List GraceTimer := []

/-! ## Building an SA -/

/-- The SA of a Child SA, oriented for its initiator. -/
def espSAFromChild (replayWindow : UInt32) (child : ChildSA) : Go Esp.SA :=
  Esp.newSA child.suite child.responderSPI child.initiatorSPI child.keys.encrIR child.keys.integIR
    child.keys.encrRI child.keys.integRI replayWindow

namespace Client

/-! ## The registry -/

def lookupInbound (cl : Client) (spi : UInt32) : Option Ptr := cl.inbound spi

def resetInbound (cl : Client) (spi : UInt32) (sa : Ptr) : Client :=
  { cl with inbound := Function.update (fun _ => none) spi (some sa) }

def removeInbound (cl : Client) (spi : UInt32) (want : Option Ptr) : Client :=
  { cl with inbound := removeIf cl.inbound spi want }

/-- Stop the timers that have not fired, and forget all of them. -/
def stopGraceTimers (cl : Client) : Client :=
  { cl with armed := cl.armed.filter fun t => t.id ∉ cl.graceTimers, graceTimers := [] }

def scheduleInboundRemoval (cl : Client) (spi : UInt32) (sa : Option Ptr) : Client :=
  { cl with
    armed := { id := cl.nextTimer, spi, want := sa } :: cl.armed
    graceTimers := cl.graceTimers ++ [cl.nextTimer]
    nextTimer := cl.nextTimer + 1 }

/-- The callback of a timer starts. -/
def fire (cl : Client) (t : GraceTimer) : Client :=
  { cl with armed := cl.armed.erase t, started := t :: cl.started }

/-- The first part of a callback, under the lock of the registry. -/
def callback (cl : Client) (t : GraceTimer) : Client :=
  { cl.removeInbound t.spi t.want with
    started := cl.started.erase t, ending := t :: cl.ending }

/-- The second part of a callback, under the lock of the timers. -/
def prune (cl : Client) (t : GraceTimer) : Client :=
  { cl with graceTimers := cl.graceTimers.filter (· ≠ t.id), ending := cl.ending.erase t }

/-! ## Rekey and reconnect -/

/-- Install a rekeyed Child SA.  An SA that cannot be built is logged. -/
def installChildSA (replayWindow : UInt32) (u : ChildSAUpdate) (cl : Client) : Client :=
  match Esp.newSA u.suite u.newOutSPI u.newInSPI u.outEncr u.outInteg u.inEncr u.inInteg
      replayWindow with
  | .error _ => cl
  | .ok sa =>
      let superseded := cl.inbound u.oldInSPI
      let new := cl.heap.length
      let cl := { cl with
        heap := cl.heap ++ [sa]
        inbound := Function.update cl.inbound u.newInSPI (some new)
        tun := new }
      if u.oldInSPI ≠ 0 ∧ u.oldInSPI ≠ u.newInSPI then
        cl.scheduleInboundRemoval u.oldInSPI superseded
      else cl

/-- The first data plane of a client. -/
def startDataPlane (replayWindow : UInt32) (d : Drive) : Go Client :=
  match d.s.child with
  | none => .error .panic
  | some child => do
      let sa ← espSAFromChild replayWindow child
      return resetInbound { session := d, heap := [sa], inbound := fun _ => none, tun := 0 }
        child.initiatorSPI 0

/-- What a reconnect does once the control loop is stopped and a new session is dialled.
A Child SA that cannot be built is given up with its session, to be tried again. -/
def reconnect (replayWindow : UInt32) (d : Drive) (cl : Client) : Go Client :=
  let cl := cl.stopGraceTimers
  match d.s.child with
  | none => .error .panic
  | some child =>
      match espSAFromChild replayWindow child with
      | .error _ => .ok cl
      | .ok sa =>
          let new := cl.heap.length
          let cl := resetInbound { cl with heap := cl.heap ++ [sa] } child.initiatorSPI new
          .ok { cl with session := d, stopped := false, tun := new }

end Client

/-! ## Keys that fit -/

/-- The keys of both directions have the lengths of the suite. -/
def Keyed (suite : Esp.Suite) (outEncr outInteg inEncr inInteg : Bytes) : Prop :=
  ∃ row ∈ espSuites, row.id = suite ∧ outEncr.length = row.encrKeyLen ∧
    outInteg.length = row.integKeyLen ∧ inEncr.length = row.encrKeyLen ∧
    inInteg.length = row.integKeyLen

theorem Keyed.symm {suite : Esp.Suite} {e₁ a₁ e₂ a₂ : Bytes} (h : Keyed suite e₁ a₁ e₂ a₂) :
    Keyed suite e₂ a₂ e₁ a₁ := by
  obtain ⟨row, hrow, hid, h₁, h₂, h₃, h₄⟩ := h
  exact ⟨row, hrow, hid, h₃, h₄, h₁, h₂⟩

theorem keyed_of_derived {c : Crypto} {ike : Ikesa.IKESA} {secret ni nr : Bytes} {row : EspSuite}
    {keys : Ikesa.ChildKeys} (hrow : row ∈ espSuites)
    (h : ike.deriveChildKeys c secret ni nr row.encrKeyLen row.integKeyLen = .ok keys) :
    Keyed row.id keys.encrIR keys.integIR keys.encrRI keys.integRI := by
  simp only [Ikesa.IKESA.deriveChildKeys, bind_eq_ok, pure_eq_ok, Except.ok.injEq] at h
  obtain ⟨ks, -, k₁, h₁, k₂, h₂, k₃, h₃, k₄, h₄, rfl⟩ := h
  have l₁ := length_slice h₁
  have l₂ := length_slice h₂
  have l₃ := length_slice h₃
  have l₄ := length_slice h₄
  refine ⟨row, hrow, rfl, ?_, ?_, ?_, ?_⟩ <;> dsimp only <;> omega

theorem newKeysAEAD_ok {suite : Esp.Suite} {kind : AEADKind} (hkind : Esp.aeadKind suite = some kind)
    {outEncr outInteg inEncr inInteg : Bytes} (h₁ : outEncr.length = 36) (h₂ : outInteg.length = 0)
    (h₃ : inEncr.length = 36) (h₄ : inInteg.length = 0) :
    ∃ k, Esp.newKeysAEAD suite outEncr outInteg inEncr inInteg = .ok k := by
  have hnew (key : Bytes) (hlen : key.length = 32) :
      Esp.newAEAD suite key = .ok { kind, key } := by
    simp only [Esp.newAEAD, hkind, newAEADOf_ok hlen]
  have hcheck (name : String) (encr integ : Bytes) (he : encr.length = 36) (hi : integ.length = 0) :
      Esp.checkKeyMaterial suite name encr integ Esp.aeadEncrKeyLen 0 = .ok () := by
    simp [Esp.checkKeyMaterial, he, hi, Esp.aeadEncrKeyLen]
  have hkey (encr : Bytes) (he : encr.length = 36) :
      slice encr 0 (Esp.aeadEncrKeyLen - Esp.aeadSaltLen) = .ok (encr.take 32) := by
    rw [slice_ok (Nat.zero_le _) (by rw [he]; decide)]
    rfl
  have hsalt (encr : Bytes) (he : encr.length = 36) :
      sliceFrom encr (Esp.aeadEncrKeyLen - Esp.aeadSaltLen) = .ok (encr.drop 32) :=
    sliceFrom_ok (by rw [he]; decide)
  simp only [Esp.newKeysAEAD, hcheck _ _ _ h₁ h₂, hcheck _ _ _ h₃ h₄, hkey _ h₁, hkey _ h₃,
    hsalt _ h₁, hsalt _ h₃, ok_bind, hnew _ (show (outEncr.take 32).length = 32 by simp [h₁]),
    hnew _ (show (inEncr.take 32).length = 32 by simp [h₃]), wrapErr_ok]
  exact ⟨_, rfl⟩

/-- An SA is built from keys that fit. -/
theorem Keyed.newSA {suite : Esp.Suite} {outEncr outInteg inEncr inInteg : Bytes}
    (h : Keyed suite outEncr outInteg inEncr inInteg) (outSPI inSPI replayWindow : UInt32) :
    ∃ sa, Esp.newSA suite outSPI inSPI outEncr outInteg inEncr inInteg replayWindow = .ok sa ∧
      sa.outSPI = outSPI ∧ sa.inSPI = inSPI := by
  have hkeys : ∃ k, Esp.newKeys suite outEncr outInteg inEncr inInteg = .ok k := by
    obtain ⟨row, hrow, rfl, h₁, h₂, h₃, h₄⟩ := h
    rcases List.mem_cons.mp hrow with rfl | hrow
    · exact newKeysAEAD_ok rfl h₁ h₂ h₃ h₄
    rcases List.mem_cons.mp hrow with rfl | hrow
    · exact newKeysAEAD_ok rfl h₁ h₂ h₃ h₄
    · cases List.mem_singleton.mp hrow
      dsimp only at h₁ h₂ h₃ h₄
      exact ⟨.cbc outEncr inEncr outInteg inInteg, by
        simp [Esp.newKeys, Esp.newKeysCBC, Esp.checkKeyMaterial, Esp.cbcEncrKeyLen,
          Esp.cbcIntegKeyLen, h₁, h₂, h₃, h₄, aesNewCipher]⟩
  obtain ⟨k, hk⟩ := hkeys
  refine ⟨{ suite, outSPI, inSPI, keys := k, seq := 0, replay := Esp.newReplayWindow replayWindow },
    ?_, rfl, rfl⟩
  simp only [Esp.newSA, hk, ok_bind, pure_eq_ok]

end GoIpsec.Ipsec
