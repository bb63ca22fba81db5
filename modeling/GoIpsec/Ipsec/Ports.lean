import GoIpsec.Ipsec.Demux
import GoIpsec.Ipsec.Lockstep

/-!
# SPIs and the marker of IKE

ESP and IKE share a port, and are told apart by the first word of a datagram.  The word
of an IKE message is zero, and that of an ESP packet is its SPI.  So a client whose SPIs
are not zero takes each for what it is.  Nothing keeps an SPI from being zero: those of
the client are random octets, and those of the peer are what its proposals say.
-/

set_option linter.dupNamespace false

namespace GoIpsec.Ipsec

open Golang Session

/-- An ESP packet for an SPI. -/
def IsPacket (spi : UInt32) (pkt : Bytes) : Prop := ∃ seq rest, pkt = Esp.espHeader spi seq ++ rest

theorem spiOf_packet {spi : UInt32} {pkt : Bytes} (h : IsPacket spi pkt) :
    Demux.spiOf pkt = .ok spi := by
  obtain ⟨seq, rest, rfl⟩ := h
  rw [Demux.spiOf, Esp.espHeader, List.append_assoc, slice_append_of_le (by simp),
    slice_all (by simp), ok_bind, uint32_putUint32]

/-- A packet is taken for one exactly if its SPI is not zero. -/
theorem classify_packet {spi : UInt32} {pkt : Bytes} (h : IsPacket spi pkt) :
    classify pkt = .ok (.esp, pkt) ↔ spi ≠ 0 := by
  obtain ⟨seq, rest, rfl⟩ := h
  rw [Esp.espHeader, List.append_assoc, classify_word]
  by_cases hz : spi = 0
  · simp [hz]
  · simp [hz]

theorem classify_wrapIKE (m : Bytes) : classify (wrapIKE m) = .ok (.ike, m) := by
  have hmarker : wrapIKE m = putUint32 0 ++ m := rfl
  rw [hmarker, classify_word, if_pos rfl]

/-- What an SA encrypts to is a packet for the SPI of the peer. -/
theorem encrypt_packet {c : Crypto} {sa : Esp.SA} {rand : RandRead} {inner pkt : Bytes}
    (h : (sa.encrypt c rand inner).1 = .ok pkt) : IsPacket sa.outSPI pkt := by
  unfold Esp.SA.encrypt at h
  split at h
  · cases h
  dsimp only at h
  split at h
  · simp only [Esp.encryptCBC, bind_eq_ok, pure_eq_ok, Except.ok.injEq] at h
    obtain ⟨iv, -, ct, -, rfl⟩ := h
    exact ⟨_, _, List.append_assoc ..⟩
  · simp only [Esp.encryptAEAD, bind_eq_ok, pure_eq_ok, Except.ok.injEq] at h
    obtain ⟨ct, -, rfl⟩ := h
    exact ⟨_, _, rfl⟩

/-- A fresh SA encrypts if the random source gives octets. -/
theorem encrypt_ok {c : Crypto} {sa : Esp.SA} (h : sa.Sound) (octets : Nat → UInt8) (inner : Bytes) :
    ∃ pkt, (Esp.SA.encrypt c { sa with seq := 0 } (some octets) inner).1 = .ok pkt := by
  rw [Esp.SA.encrypt, if_neg (show (0 : UInt32) ≠ 0xFFFFFFFF by decide)]
  cases hkeys : sa.keys with
  | cbc outBlock inBlock outInteg inInteg =>
      simp only [Esp.encryptCBC, RandRead.full, ok_bind, Crypto.encryptBlocks]
      rw [if_pos ⟨by simp [Esp.cbcIVLen], Esp.length_fillTrailer_mod inner⟩]
      exact ⟨_, rfl⟩
  | aead outAEAD inAEAD outSalt inSalt =>
      have hsalt := (h.salts _ _ _ _ hkeys).1
      simp only [Esp.encryptAEAD, Crypto.sealWith]
      rw [if_pos (by simp [hsalt, Esp.aeadSaltLen])]
      exact ⟨_, rfl⟩

/-! ## A client -/

namespace Client

/-- The inbound SPIs of a session: those of the Child SAs it has told its client of, and the one
of a Child SA it has asked for. -/
def sessionSPIs (d : Drive) : List UInt32 :=
  (updates d.log).map ChildSAUpdate.newInSPI ++
    match d.s.pending.map PendingExchange.kind with
    | some (.childRekey ctx) => [ctx.newInSPI]
    | _ => []

/-- The inbound SPIs the client has at a time. -/
def spis (cl : Client) : List UInt32 := cl.heap.map Esp.SA.inSPI ++ sessionSPIs cl.session

/-- The datagrams of the client and for it are taken for what they are, if `allocated` are the
SPIs that peers send to. -/
structure Unconfused (c : Crypto) (allocated : List UInt32) (cl : Client) : Prop where
  inbound : ∀ spi ∈ allocated, ∀ pkt, IsPacket spi pkt →
    classify pkt = .ok (.esp, pkt) ∧ Demux.spiOf pkt = .ok spi
  outbound : ∀ sa ∈ cl.heap, ∀ seq rand inner pkt,
    (Esp.SA.encrypt c { sa with seq } rand inner).1 = .ok pkt → classify pkt = .ok (.esp, pkt)
  ike : ∀ m, classify (wrapIKE m) = .ok (.ike, m)

theorem mem_heap_installChildSA {w : UInt32} {u : ChildSAUpdate} {cl : Client} {sa : Esp.SA}
    (h : sa ∈ (installChildSA w u cl).heap) : sa ∈ cl.heap ∨
      Esp.newSA u.suite u.newOutSPI u.newInSPI u.outEncr u.outInteg u.inEncr u.inInteg w = .ok sa := by
  unfold installChildSA at h
  split at h
  · exact .inl h
  · rename_i new hnew
    have hsa : sa ∈ cl.heap ++ [new] := by
      dsimp only at h
      split at h <;> exact h
    rcases List.mem_append.mp hsa with hsa | hsa
    · exact .inl hsa
    · rw [List.mem_singleton.mp hsa]
      exact .inr hnew

end Client

section

variable {c : Crypto} {w : UInt32} {cl cl' : Client}

/-- An SA of the client was there before the installs, or is for one of them. -/
theorem mem_heap_foldr_installChildSA {us : List ChildSAUpdate} {sa : Esp.SA}
    (h : sa ∈ (us.foldr (Client.installChildSA w) cl).heap) : sa ∈ cl.heap ∨ ∃ u ∈ us,
      Esp.newSA u.suite u.newOutSPI u.newInSPI u.outEncr u.outInteg u.inEncr u.inInteg w = .ok sa := by
  induction us with
  | nil => exact .inl h
  | cons u us ih =>
      rcases Client.mem_heap_installChildSA h with h | hnew
      · exact (ih h).imp_right fun ⟨v, hv, hnew⟩ => ⟨v, List.mem_cons_of_mem _ hv, hnew⟩
      · exact .inr ⟨u, List.mem_cons_self, hnew⟩

theorem Step.heap_sound {a : Action} (h : Step c w cl a cl') (hcl : ∀ sa ∈ cl.heap, sa.Sound) :
    ∀ sa ∈ cl'.heap, sa.Sound := by
  cases h with
  | turn env input _ _ _ =>
      intro sa hsa
      rcases mem_heap_foldr_installChildSA hsa with hsa | ⟨u, -, hnew⟩
      · exact hcl sa hsa
      · exact Esp.newSA_sound hnew
  | fire => exact hcl
  | callback => exact hcl
  | prune => exact hcl
  | @reconnect _ d child hstart hchild hkeyed hreconnect =>
      obtain ⟨new, hnew, -⟩ := hkeyed.espSAFromChild w
      simp only [Client.reconnect, hchild, hnew] at hreconnect
      cases hreconnect
      intro sa hsa
      rcases List.mem_append.mp hsa with hsa | hsa
      · exact hcl sa hsa
      · rw [List.mem_singleton.mp hsa]
        exact Esp.newSA_sound hnew

/-- The runs of a client, with every SPI it has ever had.  That of a Child SA it asked for and did
not get stays in the list, and so do those of the sessions before a reconnect. -/
inductive Allocates (c : Crypto) (w : UInt32) (cl₀ : Client) : List UInt32 → Client → Prop
  | start : Allocates c w cl₀ cl₀.spis cl₀
  | step {allocated : List UInt32} {a : Action} {cl cl' : Client} (h : Allocates c w cl₀ allocated cl)
      (hstep : Step c w cl a cl') : Allocates c w cl₀ (cl'.spis ++ allocated) cl'

/-- Every SA of a client was built for its suite. -/
theorem Allocates.heap_sound {cl₀ : Client} {spi₀ : UInt32} {allocated : List UInt32}
    (hbegins : Begins w cl₀ spi₀) (hrun : Allocates c w cl₀ allocated cl) : ∀ sa ∈ cl.heap, sa.Sound := by
  induction hrun with
  | start =>
      obtain ⟨d, child, -, hchild, -, hcl⟩ := hbegins
      simp only [Client.startDataPlane, hchild, bind_eq_ok, pure_eq_ok, Except.ok.injEq] at hcl
      obtain ⟨new, hnew, rfl⟩ := hcl
      intro sa hsa
      rw [List.mem_singleton.mp hsa]
      exact Esp.newSA_sound hnew
  | step _ hstep ih => exact hstep.heap_sound ih

/-- In every run, ESP and IKE are told apart exactly if no SPI that the client has ever had is
zero, and none of those its SAs send to. -/
theorem unconfused_iff {cl₀ : Client} {spi₀ : UInt32} {allocated : List UInt32}
    (hbegins : Begins w cl₀ spi₀) (hrun : Allocates c w cl₀ allocated cl) :
    cl.Unconfused c allocated ↔ (∀ spi ∈ allocated, spi ≠ 0) ∧ ∀ sa ∈ cl.heap, sa.outSPI ≠ 0 := by
  constructor
  · rintro ⟨hin, hout, -⟩
    refine ⟨fun spi hspi => ?_, fun sa hsa => ?_⟩
    · have hpkt : IsPacket spi (Esp.espHeader spi 1) := ⟨1, [], (List.append_nil _).symm⟩
      exact (classify_packet hpkt).mp (hin spi hspi _ hpkt).1
    · obtain ⟨pkt, hpkt⟩ := encrypt_ok (c := c) (hrun.heap_sound hbegins sa hsa) (fun _ => 0) []
      exact (classify_packet (encrypt_packet hpkt)).mp (hout sa hsa 0 _ _ pkt hpkt)
  · rintro ⟨hin, hout⟩
    refine ⟨fun spi hspi pkt hpkt => ?_, fun sa hsa seq rand inner pkt hpkt => ?_, classify_wrapIKE⟩
    · exact ⟨(classify_packet hpkt).mpr (hin spi hspi), spiOf_packet hpkt⟩
    · exact (classify_packet (encrypt_packet hpkt)).mpr (hout sa hsa)

end

theorem Client.installChildSA_of_ok {w : UInt32} {u : ChildSAUpdate} {sa : Esp.SA} (cl : Client)
    (h : Esp.newSA u.suite u.newOutSPI u.newInSPI u.outEncr u.outInteg u.inEncr u.inInteg w =
      .ok sa) :
    (installChildSA w u cl).inbound u.newInSPI = some (installChildSA w u cl).tun := by
  simp only [installChildSA, h]
  split <;> exact Function.update_self ..

theorem heap_sample (env : Env) (cl₀ : Client) : (sampleRekeyedClient env cl₀).heap =
    ((sampleUpdates env).foldr (Client.installChildSA 64) cl₀).heap := by
  simp only [sampleRekeyedClient]

theorem spis_sample (env : Env) (cl₀ : Client) : (sampleRekeyedClient env cl₀).spis =
    (sampleRekeyedClient env cl₀).heap.map Esp.SA.inSPI ++
      Client.sessionSPIs (sampleRekeyTurn env).2 := by
  simp only [Client.spis, sampleRekeyedClient]

/-- The SPI of the Child SA that the peer rekeyed to is in use. -/
theorem rekeyed_sample (env : Env) (spi : UInt32) (cl₀ : Client)
    (h : (sampleUpdates env).map (fun u => (u.newInSPI, (Esp.newSA u.suite u.newOutSPI u.newInSPI
      u.outEncr u.outInteg u.inEncr u.inInteg 64).toBool)) = [(spi, true)]) :
    (sampleRekeyedClient env cl₀).lookupInbound spi = some (sampleRekeyedClient env cl₀).tun ∧
      spi ∈ (sampleRekeyedClient env cl₀).spis := by
  obtain ⟨u, hus, hu⟩ := List.map_eq_singleton_iff.mp h
  obtain ⟨rfl, hsa⟩ := Prod.mk.inj hu
  constructor
  · cases hnew : Esp.newSA u.suite u.newOutSPI u.newInSPI u.outEncr u.outInteg u.inEncr u.inInteg 64 with
    | error e =>
        rw [hnew] at hsa
        cases hsa
    | ok sa =>
        have hinbound := cl₀.installChildSA_of_ok hnew
        unfold sampleRekeyedClient
        rw [hus]
        exact hinbound
  · have hspi : u.newInSPI ∈ (sampleUpdates env).map ChildSAUpdate.newInSPI := by
      rw [hus]
      exact List.mem_cons_self
    rw [spis_sample, Client.sessionSPIs, ← sampleUpdates]
    exact List.mem_append_right _ (List.mem_append_left _ hspi)

/-- The peer rekeys the Child SA of a client that has just started.  The client receives on a new
SPI, and takes no datagram for what it is not. -/
theorem unconfused_iff_sample :
    ∃ cl₀ cl allocated, Begins 64 cl₀ 0x11 ∧ Allocates Crypto.sample 64 cl₀ allocated cl ∧
      0x11 ∈ allocated ∧ (∃ spi ∈ allocated, spi ≠ 0x11 ∧ cl.lookupInbound spi = some cl.tun) ∧
      cl.Unconfused Crypto.sample allocated := by
  obtain ⟨cl₀, hbegins, hsession, hgoing, hheap⟩ := begins_sample
  have hrun := Allocates.start.step (step_sample hsession hgoing sampleRekeyEnv)
  obtain ⟨hinbound, hnew⟩ := rekeyed_sample sampleRekeyEnv 0x05050505 cl₀
    (by decide +kernel)
  have hold (sa : Esp.SA) (hsa : sa ∈ cl₀.heap) : sa.inSPI = 0x11 ∧ sa.outSPI = 0x22 := by
    have hmem := List.mem_map_of_mem (f := fun sa => (sa.inSPI, sa.outSPI)) hsa
    rw [hheap, List.mem_singleton] at hmem
    exact Prod.mk.inj hmem
  have hupdates : ∀ u ∈ sampleUpdates sampleRekeyEnv, u.newInSPI ≠ 0 ∧ u.newOutSPI ≠ 0 := by
    decide +kernel
  have hsas : ∀ sa ∈ (sampleRekeyedClient sampleRekeyEnv cl₀).heap, sa.inSPI ≠ 0 ∧ sa.outSPI ≠ 0 := by
    intro sa hsa
    rw [heap_sample] at hsa
    rcases mem_heap_foldr_installChildSA hsa with hsa | ⟨u, hu, hsa⟩
    · rw [(hold sa hsa).1, (hold sa hsa).2]
      decide
    · rw [(Esp.newSA_spis hsa).1, (Esp.newSA_spis hsa).2]
      exact hupdates u hu
  have hstart : cl₀.spis = [0x11] := by
    have hsession₀ : Client.sessionSPIs sampleKeyedStart = [] := by decide +kernel
    rw [Client.spis, hsession, hsession₀, List.append_nil]
    have h := congrArg (List.map Prod.fst) hheap
    rwa [List.map_map] at h
  refine ⟨cl₀, _, _, hbegins, hrun, ?_, ⟨_, List.mem_append_left _ hnew, by decide, hinbound⟩,
    (unconfused_iff hbegins hrun).mpr ⟨?_, fun sa hsa => (hsas sa hsa).2⟩⟩
  · rw [hstart]
    exact List.mem_append_right _ List.mem_cons_self
  · intro spi hspi
    rw [hstart, spis_sample] at hspi
    have hdrawn : 0 ∉ Client.sessionSPIs (sampleRekeyTurn sampleRekeyEnv).2 := by decide +kernel
    rcases List.mem_append.mp hspi with hspi | hspi
    · rcases List.mem_append.mp hspi with hspi | hspi
      · obtain ⟨sa, hsa, rfl⟩ := List.mem_map.mp hspi
        exact (hsas sa hsa).1
      · exact ne_of_mem_of_not_mem hspi hdrawn
    · rw [List.mem_singleton.mp hspi]
      decide

/-- A random source that gives zeros. -/
def sampleZeroEnv : Env := { sampleEnv 2 with rand := fun _ => some fun _ => 0 }

/-- The peer rekeys the Child SA, and the SPI drawn for it is zero.  The client registers
it, and takes the packets the peer sends to it for IKE messages. -/
theorem zero_spi_confused :
    ∃ cl₀ cl allocated pkt rest, Begins 64 cl₀ 0x11 ∧
      Steps Crypto.sample 64 cl₀ [.turn (sampleUpdates sampleZeroEnv)] cl ∧
      Allocates Crypto.sample 64 cl₀ allocated cl ∧ 0 ∈ allocated ∧
      cl.lookupInbound 0 = some cl.tun ∧ IsPacket 0 pkt ∧ classify pkt = .ok (.ike, rest) := by
  obtain ⟨cl₀, hbegins, hsession, hgoing, -⟩ := begins_sample
  have hstep := step_sample hsession hgoing sampleZeroEnv
  obtain ⟨hinbound, hspi⟩ := rekeyed_sample sampleZeroEnv 0 cl₀ (by decide +kernel)
  exact ⟨cl₀, _, _, Esp.espHeader 0 1, putUint32 1, hbegins, Steps.refl.step hstep,
    Allocates.start.step hstep, List.mem_append_left _ hspi, hinbound,
    ⟨1, [], (List.append_nil _).symm⟩, classify_word 0 _⟩

end GoIpsec.Ipsec
