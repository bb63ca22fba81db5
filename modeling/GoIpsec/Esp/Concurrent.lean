import GoIpsec.Lib.Atomic
import GoIpsec.Esp.Delivery

/-!
# Concurrent callers of an SA

`Encrypt` is called by any number of callers at once.  Its loop takes the next sequence
number from the counter that they share, and the packet is built without a lock.  A caller
alone does what the sequential model says (`alone_encrypt`).
-/

namespace GoIpsec.Esp

open Golang Atomic

/-- The packet for one inner datagram under a sequence number that has been taken. -/
def SA.encryptSeq (c : Crypto) (sa : SA) (rand : RandRead) (inner : Bytes) (seq : UInt32) : Go Bytes :=
  match sa.keys with
  | .cbc outBlock _ outInteg _ => encryptCBC c outBlock outInteg sa.outSPI seq rand inner
  | .aead outAEAD _ outSalt _ => encryptAEAD c outAEAD outSalt sa.outSPI seq inner

/-- The sequence numbers of an SA. -/
def SA.counter (c : Crypto) (sa : SA) : Counter UInt32 (RandRead × Bytes) (Go Bytes) where
  next seq := seq + 1
  top := 0xFFFFFFFF
  work a seq := sa.encryptSeq c a.1 a.2 seq
  full := .error errSeqExhausted

/-- The callers of an SA, known by any identifiers. -/
abbrev Callers (ι : Type) := Shared ι UInt32 (RandRead × Bytes) (Go Bytes)

/-- Nobody calls, and the last sequence number used is `seq`. -/
def Callers.start (ι : Type) (seq : UInt32) : Callers ι := { value := seq, phase := fun _ => .idle }

/-- The packets that `Encrypt` has returned. -/
def Callers.emitted {ι : Type} (s : Callers ι) : List Bytes :=
  s.returned.filterMap fun r => r.result.toOption

/-- The sequence number a packet carries. -/
def seqOf (pkt : Bytes) : Go UInt32 := do uint32 (← slice pkt 4 8)

/-- The IV of a packet of an AEAD suite. -/
def aeadIV (pkt : Bytes) : Go Bytes := slice pkt espHeaderLen (espHeaderLen + aeadIVLen)

variable {c : Crypto} {sa : SA} {ι : Type}

theorem toNat_succ {seq : UInt32} (h : seq ≠ 0xFFFFFFFF) : (seq + 1).toNat = seq.toNat + 1 := by
  have hlt := seq.toNat_lt
  have hne : seq.toNat ≠ 2 ^ 32 - 1 := fun he => h (UInt32.toNat_inj.mp he)
  rw [UInt32.toNat_add, UInt32.toNat_one]
  omega

theorem SA.counts (c : Crypto) (sa : SA) : Counts (sa.counter c) UInt32.toNat :=
  fun _ hseq => toNat_succ hseq

/-- A packet carries the sequence number it was built with. -/
theorem seqOf_encryptSeq {rand : RandRead} {inner pkt : Bytes} {seq : UInt32}
    (h : sa.encryptSeq c rand inner seq = .ok pkt) : seqOf pkt = .ok seq := by
  unfold SA.encryptSeq at h
  split at h
  · simp only [encryptCBC, bind_eq_ok, pure_eq_ok, Except.ok.injEq] at h
    obtain ⟨iv, -, ct, -, rfl⟩ := h
    rw [List.append_assoc]
    exact seq_espHeader _ _ _
  · simp only [encryptAEAD, bind_eq_ok, pure_eq_ok, Except.ok.injEq] at h
    obtain ⟨ct, -, rfl⟩ := h
    exact seq_espHeader _ _ _

/-- The IV of an AEAD suite is the sequence number. -/
theorem aeadIV_encryptSeq {outAEAD inAEAD : AEAD} {outSalt inSalt : Bytes}
    (hkeys : sa.keys = .aead outAEAD inAEAD outSalt inSalt) {rand : RandRead} {inner pkt : Bytes}
    {seq : UInt32} (h : sa.encryptSeq c rand inner seq = .ok pkt) :
    aeadIV pkt = .ok (putUint64 seq.toUInt64) := by
  simp only [SA.encryptSeq, hkeys, encryptAEAD, bind_eq_ok, pure_eq_ok, Except.ok.injEq] at h
  obtain ⟨ct, -, rfl⟩ := h
  exact slice_mid (by simp [espHeader, espHeaderLen]) (by simp [espHeader, espHeaderLen, aeadIVLen])

theorem putUint64_toUInt64_injective :
    Function.Injective fun seq : UInt32 => putUint64 seq.toUInt64 := by
  intro x y h
  have huint := congrArg uint64 (show putUint64 x.toUInt64 = putUint64 y.toUInt64 from h)
  rw [uint64_putUint64, uint64_putUint64, Except.ok.injEq] at huint
  have hnat := congrArg UInt64.toNat huint
  rw [UInt32.toNat_toUInt64, UInt32.toNat_toUInt64] at hnat
  exact UInt32.toNat_inj.mp hnat

/-! ## Packets and the numbers they were built with -/

/-- What is read from the packets tells the numbers that were taken for them, and each was
taken for one. -/
theorem emitted_sublist {X : Type} {f : Bytes → Go X} {g : UInt32 → X}
    (hf : ∀ rand inner seq pkt, sa.encryptSeq c rand inner seq = .ok pkt → f pkt = .ok (g seq)) :
    ∀ {rs : List (Return ι UInt32 (Go Bytes))}, (∀ r ∈ rs, r.Proper (sa.counter c)) →
      ((rs.filterMap fun r => r.result.toOption).map f).Sublist
        ((rs.filterMap Return.value).map fun seq => .ok (g seq))
  | [], _ => .slnil
  | r :: rs, h => by
      have ih := emitted_sublist hf fun r' hr' => h r' (List.mem_cons_of_mem _ hr')
      rcases h r List.mem_cons_self with ⟨hvalue, hresult⟩ | ⟨a, seq, hvalue, hresult⟩
      · have hnone : r.result.toOption = none := by rw [hresult]; rfl
        simp only [List.filterMap_cons, hnone, hvalue]
        exact ih
      · cases hres : r.result with
        | error e =>
            simp only [List.filterMap_cons, hres, hvalue, Except.toOption, List.map_cons]
            exact ih.cons _
        | ok pkt =>
            simp only [List.filterMap_cons, hres, hvalue, Except.toOption, List.map_cons,
              hf a.1 a.2 seq pkt (hresult.symm.trans hres)]
            exact ih.cons_cons _

theorem emitted_nodup {X : Type} {f : Bytes → Go X} {g : UInt32 → X} (hg : Function.Injective g)
    (hf : ∀ rand inner seq pkt, sa.encryptSeq c rand inner seq = .ok pkt → f pkt = .ok (g seq))
    {seq₀ : UInt32} {s : Callers ι} (h : Taken (sa.counter c) UInt32.toNat seq₀ s) :
    (s.emitted.map f).Nodup := by
  refine (emitted_sublist hf h.results).nodup (h.once.map fun x y hxy => ?_)
  exact hg (Except.ok.inj hxy)

/-- A packet carries a number that was taken for it. -/
theorem exists_taken_of_emitted {seq₀ : UInt32} {s : Callers ι}
    (h : Taken (sa.counter c) UInt32.toNat seq₀ s) {pkt : Bytes} (hpkt : pkt ∈ s.emitted) :
    ∃ seq ∈ s.taken, seqOf pkt = .ok seq := by
  have hmem : seqOf pkt ∈ s.emitted.map seqOf := List.mem_map_of_mem hpkt
  have hsub := emitted_sublist (f := seqOf) (g := id)
    (fun _ _ _ _ henc => seqOf_encryptSeq henc) h.results
  obtain ⟨seq, hseq, heq⟩ := List.mem_map.mp (hsub.subset hmem)
  exact ⟨seq, h.used seq hseq, heq.symm⟩

/-- A number that was taken lies above the one at the start. -/
theorem pos_of_taken {seq₀ : UInt32} {s : Callers ι}
    (h : Taken (sa.counter c) UInt32.toNat seq₀ s) {seq : UInt32} (hseq : seq ∈ s.taken) :
    0 < seq.toNat := by
  have hmem : seq.toNat ∈ s.taken.map UInt32.toNat := List.mem_map_of_mem hseq
  rw [h.taken, List.mem_reverse, List.mem_range'_1] at hmem
  omega

/-! ## Interleavings -/

variable [DecidableEq ι]

/-- Whatever the interleaving, each packet has a number of its own, and the numbers are
taken in order until there are none left. -/
theorem encrypt_concurrent (c : Crypto) (sa : SA) (seq₀ : UInt32) {s : Callers ι}
    (hrun : Steps (sa.counter c) (Callers.start ι seq₀) s) :
    (s.emitted.map seqOf).Nodup ∧ (∀ pkt ∈ s.emitted, ∃ seq, seqOf pkt = .ok seq ∧ seq ≠ 0) ∧
    (∀ outAEAD inAEAD outSalt inSalt, sa.keys = .aead outAEAD inAEAD outSalt inSalt →
      (s.emitted.map aeadIV).Nodup) ∧
    (∃ n, s.taken.reverse.map UInt32.toNat = List.range' (seq₀.toNat + 1) n ∧
      s.value.toNat = seq₀.toNat + n) ∧
    (∀ a s', Step (sa.counter c) s a s' →
      s'.value = s.value ∨ s'.value.toNat = s.value.toNat + 1) ∧
    (s.value = 0xFFFFFFFF → ∀ s', Steps (sa.counter c) s s' →
      s'.value = 0xFFFFFFFF ∧ s'.taken = s.taken ∧
      ∀ i a s'', s'.phase i = .ready a →
        (Step (sa.counter c) s' (.load i) s'' ↔ s'' = s'.ret i none (.error errSeqExhausted))) := by
  have h : Taken (sa.counter c) UInt32.toNat seq₀ s :=
    (taken_start (sa.counter c) UInt32.toNat seq₀).steps (sa.counts c) hrun
  refine ⟨?_, fun pkt hpkt => ?_, ?_, ⟨s.taken.length, ?_, h.value⟩, fun a s' hstep => ?_, ?_⟩
  · exact emitted_nodup (g := id) Function.injective_id (fun _ _ _ _ henc => seqOf_encryptSeq henc) h
  · obtain ⟨seq, hseq, heq⟩ := exists_taken_of_emitted h hpkt
    refine ⟨seq, heq, ?_⟩
    rintro rfl
    exact absurd (pos_of_taken h hseq) (by decide)
  · intro outAEAD inAEAD outSalt inSalt hkeys
    exact emitted_nodup putUint64_toUInt64_injective
      (fun _ _ _ _ henc => aeadIV_encryptSeq hkeys henc) h
  · rw [List.map_reverse, h.taken, List.reverse_reverse]
  · rcases h.value_step hstep with ⟨hvalue, -⟩ | ⟨hne, hvalue⟩
    · exact .inl hvalue
    · exact .inr (by rw [hvalue]; exact toNat_succ hne)
  · intro htop s' hsteps
    obtain ⟨htop', htaken⟩ := h.exhausted (sa.counts c) htop hsteps
    exact ⟨htop', htaken, fun i a s'' hi => step_load_iff hi htop'⟩

/-- A caller that nobody disturbs does what `SA.encrypt` does. -/
theorem alone_encrypt (c : Crypto) (sa : SA) (i : ι) (rand : RandRead) (inner : Bytes) :
    ∃ s v, Steps (sa.counter c) (Callers.start ι sa.seq) s ∧
      s.value = (sa.encrypt c rand inner).2.seq ∧
      s.returned = [{ caller := i, value := v, result := (sa.encrypt c rand inner).1 }] := by
  have hgoto (p : Phase UInt32 (RandRead × Bytes)) (s : Callers ι) : (s.goto i p).phase i = p := by
    rw [goto_phase, if_pos rfl]
  let s₁ : Callers ι := (Callers.start ι sa.seq).goto i (.ready (rand, inner))
  have hcall : Step (sa.counter c) (Callers.start ι sa.seq) (.call i (rand, inner)) s₁ := .call _ rfl
  have hready : s₁.phase i = .ready (rand, inner) := hgoto _ _
  by_cases htop : sa.seq = 0xFFFFFFFF
  · refine ⟨_, none, .tail (.tail .refl ⟨_, hcall⟩) ⟨_, .full hready htop⟩, ?_, ?_⟩
    · rw [SA.encrypt, if_pos htop]
      rfl
    · rw [SA.encrypt, if_pos htop]
      rfl
  · let s₂ : Callers ι := s₁.goto i (.loaded (rand, inner) sa.seq)
    have hload : Step (sa.counter c) s₁ (.load i) s₂ := .load hready htop
    let s₃ : Callers ι := { s₂.goto i (.owner (rand, inner) (sa.seq + 1)) with
      value := sa.seq + 1, taken := [sa.seq + 1] }
    have hswap : Step (sa.counter c) s₂ (.swap i) s₃ := .swap (hgoto _ _)
    have howner : s₃.phase i = .owner (rand, inner) (sa.seq + 1) := hgoto _ s₂
    refine ⟨_, some (sa.seq + 1), .tail (.tail (.tail (.tail .refl ⟨_, hcall⟩) ⟨_, hload⟩) ⟨_, hswap⟩)
      ⟨_, .finish howner⟩, ?_, ?_⟩
    · rw [SA.encrypt_state rand inner htop]
      rfl
    · have hres : (sa.encrypt c rand inner).1 = sa.encryptSeq c rand inner (sa.seq + 1) := by
        rw [SA.encrypt, if_neg htop, SA.encryptSeq]
        cases sa.keys <;> rfl
      rw [hres]
      rfl

/-- The SA of two callers. -/
def sampleSA : SA where
  suite := .aesGCM256
  outSPI := 1
  inSPI := 2
  keys := .aead { kind := .aesGCM, key := [7] } { kind := .aesGCM, key := [9] } [1, 1, 1, 1] [2, 2, 2, 2]
  seq := 7
  replay := newReplayWindow 64

/-- Both callers load 7, the swap of one fails, and it takes 9. -/
theorem encrypt_concurrent_sample :
    ∃ s : Callers Bool, Steps (sampleSA.counter Crypto.sample) (Callers.start Bool 7) s ∧
      s.taken = [9, 8] ∧ s.emitted.length = 2 ∧ (s.emitted.map seqOf).Nodup := by
  have hboth : Steps (sampleSA.counter Crypto.sample) (Callers.start Bool 7) _ :=
    .tail (.tail (.tail (.tail .refl ⟨_, .call (i := true) (none, [0x45]) rfl⟩)
      ⟨_, .call (i := false) (none, [0x60]) rfl⟩) ⟨_, .load (i := true) rfl (by decide)⟩)
      ⟨_, .load (i := false) rfl (by decide)⟩
  have hrun : Steps (sampleSA.counter Crypto.sample) (Callers.start Bool 7) _ :=
    .tail (.tail (.tail (.tail (.tail (.tail hboth ⟨_, .swap (i := true) rfl⟩)
      ⟨_, .retry (i := false) rfl (by decide)⟩) ⟨_, .load (i := false) rfl (by decide)⟩)
      ⟨_, .swap (i := false) rfl⟩) ⟨_, .finish (i := false) rfl⟩) ⟨_, .finish (i := true) rfl⟩
  exact ⟨_, hrun, rfl, rfl, (encrypt_concurrent Crypto.sample sampleSA 7 hrun).1⟩

end GoIpsec.Esp
