import GoIpsec.Esp.Safety
import GoIpsec.Session.Handshake
import GoIpsec.Ipsec.DataPlane

/-!
# The reader of the socket

What the reader of the socket does with the datagrams that arrive: an ESP packet is
decrypted under the SA registered for its SPI and delivered, an IKE message goes to the
inbox of the control loop.  An ESP packet that cannot be delivered is counted.

Between two datagrams the control loop may take a message from the inbox, which has room
for so many.
-/

set_option linter.dupNamespace false

namespace GoIpsec.Ipsec

open Golang Session

/-- What the reader of the socket reads and writes. -/
structure Demux where
  inbound : UInt32 → Option Ptr
  /-- The ESP SAs, with their anti-replay windows. -/
  heap : List Esp.SA
  rxDrops : UInt64 := 0
  lastDataInbound : Time := 0
  /-- The inner datagrams delivered, newest first. -/
  delivered : List Bytes := []
  /-- The IKE messages that wait for the control loop. -/
  inbox : List Bytes := []
  /-- The IKE messages the control loop has taken, newest first. -/
  taken : List Bytes := []

inductive Incoming where
  | datagram (raw : Bytes) (now : Time)
  /-- The control loop takes a message from the inbox. -/
  | take

def inboxSize : Nat := 16

namespace Demux

/-- Count `n` packets that were not delivered. -/
def dropped (n : UInt64) (x : Demux) : Demux := { x with rxDrops := x.rxDrops + n }

/-- The SPI of an ESP packet. -/
def spiOf (payload : Bytes) : Go UInt32 := do uint32 (← slice payload 0 4)

/-- Decrypt a packet under an SA and deliver it. -/
def deliver (c : Crypto) (now : Time) (payload : Bytes) (p : Ptr) : Proc Demux Unit := fun x =>
  match x.heap[p]? with
  | none => (.error .panic, x)
  | some sa =>
      let r := sa.decrypt c payload
      let x := { x with heap := x.heap.set p r.2 }
      match r.1 with
      | .ok inner =>
          (.ok (), { x with lastDataInbound := now, delivered := inner :: x.delivered })
      | .error (.err _) => (.ok (), x.dropped 1)
      | .error e => (.error e, x)

def receiveESP (c : Crypto) (now : Time) (payload : Bytes) : Proc Demux Unit := fun x =>
  if payload.length < 4 then (.ok (), x.dropped 1)
  else
    match spiOf payload with
    | .error e => (.error e, x)
    | .ok spi =>
        match x.inbound spi with
        | none => (.ok (), x.dropped 1)
        | some p => deliver c now payload p x

/-- Hand a message to the control loop.  A full inbox loses it. -/
def receiveIKE (payload : Bytes) : Proc Demux Unit :=
  Proc.modify fun x =>
    if x.inbox.length < inboxSize then { x with inbox := x.inbox ++ [payload] } else x

def receive (c : Crypto) (raw : Bytes) (now : Time) : Proc Demux Unit := fun x =>
  match classify raw with
  | .error e => (.error e, x)
  | .ok (.esp, payload) => receiveESP c now payload x
  | .ok (.ike, payload) => receiveIKE payload x
  | .ok (_, _) => (.ok (), x)

def takeIKE : Proc Demux Unit :=
  Proc.modify fun x =>
    match x.inbox with
    | [] => x
    | m :: rest => { x with inbox := rest, taken := m :: x.taken }

def arrive (c : Crypto) : Incoming → Proc Demux Unit
  | .datagram raw now => receive c raw now
  | .take => takeIKE

def rxDemux (c : Crypto) : List Incoming → Proc Demux Unit
  | [] => pure ()
  | a :: as => do
      arrive c a
      rxDemux c as

/-! ## Packets that are not delivered -/

/-- The SA refuses the packet before its anti-replay window is asked: it is too short, it
is for another SPI, or its ICV or tag does not fit. -/
def unauthentic (c : Crypto) (x : Demux) (payload : Bytes) (p : Ptr) : Bool :=
  x.heap[p]?.any fun sa =>
    match sa.verify c payload with
    | .error (.err _) => true
    | _ => false

/-- The packet has no SPI, none that is registered, or is not authentic. -/
def badESP (c : Crypto) (x : Demux) (payload : Bytes) : Bool :=
  decide (payload.length < 4) ||
    match spiOf payload with
    | .error _ => false
    | .ok spi =>
        match x.inbound spi with
        | none => true
        | some p => x.unauthentic c payload p

def bad (c : Crypto) (x : Demux) : Incoming → Bool
  | .datagram raw _ =>
      match classify raw with
      | .ok (.esp, payload) => x.badESP c payload
      | _ => false
  | .take => false

/-! ## The counter is only written -/

section

variable (c : Crypto) (n : UInt64)

theorem dropped_dropped (x : Demux) (m : UInt64) :
    (x.dropped m).dropped n = (x.dropped n).dropped m := by
  simp only [dropped, UInt64.add_assoc, UInt64.add_comm m n]

/-- The call does the same from a state with another count, and keeps the difference. -/
def Blind {α : Type} (n : UInt64) (f : Proc Demux α) : Prop :=
  ∀ x, f (x.dropped n) = ((f x).1, (f x).2.dropped n)

theorem deliver_blind (now : Time) (payload : Bytes) (p : Ptr) :
    Blind n (deliver c now payload p) := by
  intro x
  have hheap : (x.dropped n).heap = x.heap := rfl
  cases hp : x.heap[p]? with
  | none => simp only [deliver, hheap, hp]
  | some sa =>
      rcases hdec : sa.decrypt c payload with ⟨res, sa'⟩
      simp only [deliver, hheap, hp, hdec]
      cases res with
      | ok inner => rfl
      | error e =>
          cases e with
          | err text => exact Prod.ext rfl (dropped_dropped 1 { x with heap := x.heap.set p sa' } n)
          | panic => rfl
          | diverge => rfl

theorem receiveESP_blind (now : Time) (payload : Bytes) : Blind n (receiveESP c now payload) := by
  intro x
  have hinbound : (x.dropped n).inbound = x.inbound := rfl
  unfold receiveESP
  by_cases hlen : payload.length < 4
  · rw [if_pos hlen, if_pos hlen]
    exact Prod.ext rfl (dropped_dropped 1 x n)
  rw [if_neg hlen, if_neg hlen, hinbound]
  cases spiOf payload with
  | error e => rfl
  | ok spi =>
      cases hp : x.inbound spi with
      | none =>
          simp only [hp]
          exact Prod.ext rfl (dropped_dropped 1 x n)
      | some p => simpa only [hp] using deliver_blind c n now payload p x

theorem modify_blind {f : Demux → Demux} (h : ∀ x, f (x.dropped n) = (f x).dropped n) :
    Blind n (Proc.modify f) :=
  fun x => Prod.ext rfl (h x)

theorem arrive_blind (a : Incoming) : Blind n (arrive c a) := by
  cases a with
  | take =>
      refine modify_blind n fun x => ?_
      have hinbox : (x.dropped n).inbox = x.inbox := rfl
      rw [hinbox]
      cases x.inbox <;> rfl
  | datagram raw now =>
      intro x
      rcases hc : classify raw with e | ⟨kind, payload⟩
      · simp only [arrive, receive, hc]
      cases kind with
      | esp => simpa only [arrive, receive, hc] using receiveESP_blind c n now payload x
      | ike =>
          simp only [arrive, receive, hc]
          refine modify_blind n (fun x => ?_) x
          have hinbox : (x.dropped n).inbox = x.inbox := rfl
          rw [hinbox]
          split <;> rfl
      | keepalive => simp only [arrive, receive, hc]
      | unknown => simp only [arrive, receive, hc]

theorem rxDemux_blind (as : List Incoming) : Blind n (rxDemux c as) := by
  induction as with
  | nil => exact fun _ => rfl
  | cons a as ih =>
      intro x
      have harrive := arrive_blind c n a x
      rcases ha : arrive c a x with ⟨res, y⟩
      rw [ha] at harrive
      cases res with
      | ok u =>
          rw [rxDemux, Proc.bind_of_ok harrive, Proc.bind_of_ok ha]
          exact ih y
      | error e => rw [rxDemux, Proc.bind_of_error harrive, Proc.bind_of_error ha]

end

/-! ## One arrival -/

/-- The registered pointers are those of SAs. -/
def Registered (x : Demux) : Prop :=
  ∀ spi p, x.inbound spi = some p → ∃ sa, x.heap[p]? = some sa ∧ sa.Sound

section

variable {c : Crypto} {x : Demux}

theorem bad_set {p : Ptr} {sa : Esp.SA} {replay : Esp.ReplayWindow} (hp : x.heap[p]? = some sa) :
    bad c { x with heap := x.heap.set p { sa with replay } } = bad c x := by
  have hun (payload : Bytes) (q : Ptr) :
      unauthentic c { x with heap := x.heap.set p { sa with replay } } payload q =
        unauthentic c x payload q := by
    simp only [unauthentic]
    by_cases hq : p = q
    · subst hq
      obtain ⟨hlt, -⟩ := List.getElem?_eq_some_iff.mp hp
      rw [List.getElem?_set_self hlt, hp]
      rfl
    · rw [List.getElem?_set_ne hq]
  funext a
  cases a with
  | take => rfl
  | datagram raw now =>
      simp only [bad, badESP, hun]

theorem Registered.set {p : Ptr} {sa : Esp.SA} (h : x.Registered) (hsa : sa.Sound) :
    Registered { x with heap := x.heap.set p sa } := by
  intro spi q hq
  obtain ⟨sa', hsa', hsound⟩ := h spi q hq
  obtain ⟨hlt, -⟩ := List.getElem?_eq_some_iff.mp hsa'
  by_cases hpq : p = q
  · subst hpq
    exact ⟨sa, List.getElem?_set_self hlt, hsa⟩
  · exact ⟨sa', (List.getElem?_set_ne hpq).trans hsa', hsound⟩

/-- What holds after an arrival that did not end the reader. -/
structure Goes (c : Crypto) (x y : Demux) : Prop where
  registered : y.Registered
  bad : bad c y = bad c x

theorem deliver_goes (h : x.Registered) {spi : UInt32} {p : Ptr} (hp : x.inbound spi = some p)
    (now : Time) (payload : Bytes) : ∃ y, deliver c now payload p x = (.ok (), y) ∧ Goes c x y := by
  obtain ⟨sa, hsa, hsound⟩ := h spi p hp
  obtain ⟨res, replay, hdec, hres, hsound'⟩ := hsound.decrypt c payload
  have hset : Goes c x { x with heap := x.heap.set p { sa with replay } } :=
    ⟨h.set hsound', bad_set hsa⟩
  simp only [deliver, hsa, hdec]
  cases res with
  | ok inner => exact ⟨_, rfl, hset.registered, hset.bad⟩
  | error e =>
      obtain ⟨text, rfl⟩ := hres e rfl
      exact ⟨_, rfl, hset.registered, hset.bad⟩

theorem receiveESP_goes (h : x.Registered) (now : Time) (payload : Bytes) :
    ∃ y, receiveESP c now payload x = (.ok (), y) ∧ Goes c x y := by
  unfold receiveESP
  split
  · exact ⟨_, rfl, h, rfl⟩
  obtain ⟨spi, hspi⟩ : ∃ spi, spiOf payload = .ok spi := by
    rw [spiOf, slice_ok (Nat.zero_le 4) (by omega), ok_bind]
    exact uint32_ok (by simp; omega)
  rw [hspi]
  dsimp only
  split
  · exact ⟨_, rfl, h, rfl⟩
  · rename_i p hp
    exact deliver_goes h hp now payload

/-- The reader goes on after every arrival. -/
theorem arrive_goes (h : x.Registered) (a : Incoming) :
    ∃ y, arrive c a x = (.ok (), y) ∧ Goes c x y := by
  cases a with
  | take =>
      refine ⟨_, rfl, ?_⟩
      dsimp only
      split <;> exact ⟨h, rfl⟩
  | datagram raw now =>
      obtain ⟨⟨kind, payload⟩, hc⟩ := classify_ok raw
      simp only [arrive, receive, hc]
      cases kind with
      | esp => exact receiveESP_goes h now payload
      | ike =>
          refine ⟨_, rfl, ?_⟩
          dsimp only
          split <;> exact ⟨h, rfl⟩
      | keepalive => exact ⟨x, rfl, h, rfl⟩
      | unknown => exact ⟨x, rfl, h, rfl⟩

/-- A bad packet is counted, and nothing else. -/
theorem arrive_bad {a : Incoming} (h : x.bad c a = true) : arrive c a x = (.ok (), x.dropped 1) := by
  cases a with
  | take => cases h
  | datagram raw now =>
      simp only [bad] at h
      split at h
      · rename_i payload hc
        simp only [arrive, receive, hc, receiveESP]
        rw [badESP, Bool.or_eq_true, decide_eq_true_eq] at h
        by_cases hlen : payload.length < 4
        · rw [if_pos hlen]
        rw [if_neg hlen]
        replace h := h.resolve_left hlen
        cases hspi : spiOf payload with
        | error e => simp [hspi] at h
        | ok spi =>
            simp only [hspi] at h ⊢
            cases hp : x.inbound spi with
            | none => rfl
            | some p =>
                simp only [hp, unauthentic, Option.any_eq_true] at h
                obtain ⟨sa, hsa, h⟩ := h
                split at h
                · rename_i text hv
                  -- the window is not asked, so the SA that is put back is the one there
                  have hset : x.heap.set p sa = x.heap := by
                    obtain ⟨hlt, rfl⟩ := List.getElem?_eq_some_iff.mp hsa
                    exact List.set_getElem_self hlt
                  simp only [deliver, hsa, Esp.SA.decrypt_of_error hv, hset]
                · cases h
      · cases h

end

/-! ## Runs -/

/-- Without its bad packets a run delivers, hands over and leaves behind the same, and
counts as many packets less. -/
theorem rxDemux_without_bad (c : Crypto) {x : Demux} (h : x.Registered) (as : List Incoming) :
    ∃ y, rxDemux c (as.filter fun a => !x.bad c a) x = (.ok (), y) ∧
      rxDemux c as x =
        (.ok (), { y with rxDrops := y.rxDrops + UInt64.ofNat (as.countP (x.bad c)) }) := by
  induction as generalizing x with
  | nil => exact ⟨x, rfl, by simp [rxDemux]; rfl⟩
  | cons a as ih =>
      cases ha : x.bad c a with
      | true =>
          obtain ⟨y, hfew, hall⟩ := ih h
          refine ⟨y, ?_, ?_⟩
          · rw [List.filter_cons_of_neg (by simp [ha])]
            exact hfew
          · -- the rest of the run starts with a count that is one higher
            rw [rxDemux, Proc.bind_of_ok (arrive_bad ha), rxDemux_blind c 1 as x, hall,
              List.countP_cons_of_pos ha, UInt64.ofNat_add]
            simp only [dropped, UInt64.add_assoc]
            rfl
      | false =>
          obtain ⟨x', hx', hgoes⟩ := arrive_goes (c := c) h a
          obtain ⟨y, hfew, hall⟩ := ih hgoes.registered
          rw [hgoes.bad] at hfew hall
          refine ⟨y, ?_, ?_⟩
          · rw [List.filter_cons_of_pos (by simp [ha]), rxDemux, Proc.bind_of_ok hx']
            exact hfew
          · rw [rxDemux, Proc.bind_of_ok hx', List.countP_cons_of_neg (by simp [ha])]
            exact hall

/-- A forged packet far ahead of the window, one for an SPI nobody has, and an IKE
message. -/
def sampleIncomings : List Incoming :=
  [.datagram (Esp.espHeader 2 0xFFFFFFFF ++ List.replicate 40 7) 10,
   .datagram (Esp.espHeader 9 1 ++ List.replicate 40 7) 11, .datagram (wrapIKE [1, 2, 3]) 12, .take]

theorem rxDemux_without_bad_sample :
    ∃ sa, Esp.newSA .aesGCM256 1 2 (List.replicate 36 7) [] (List.replicate 36 9) [] 64 = .ok sa ∧
      let x : Demux := { inbound := fun spi => if spi = 2 then some 0 else none, heap := [sa] }
      x.Registered ∧ sampleIncomings.countP (x.bad Crypto.sample) = 2 ∧
      ∃ y, rxDemux Crypto.sample (sampleIncomings.filter fun a => !x.bad Crypto.sample a) x =
          (.ok (), y) ∧
        rxDemux Crypto.sample sampleIncomings x = (.ok (), { y with
          rxDrops := y.rxDrops + UInt64.ofNat (sampleIncomings.countP (x.bad Crypto.sample)) }) := by
  obtain ⟨sa, hsa, hbad⟩ : ∃ sa,
      Esp.newSA .aesGCM256 1 2 (List.replicate 36 7) [] (List.replicate 36 9) [] 64 = .ok sa ∧
      sampleIncomings.countP (bad Crypto.sample
        { inbound := fun spi => if spi = 2 then some 0 else none, heap := [sa] }) = 2 :=
    ⟨_, rfl, by decide +kernel⟩
  have hreg : Registered { inbound := fun spi => if spi = 2 then some 0 else none, heap := [sa] } := by
    intro spi p hp
    obtain ⟨-, rfl⟩ : spi = 2 ∧ 0 = p := by simpa using hp
    exact ⟨sa, rfl, Esp.newSA_sound hsa⟩
  exact ⟨sa, hsa, hreg, hbad, rxDemux_without_bad Crypto.sample hreg sampleIncomings⟩

end Demux

end GoIpsec.Ipsec
