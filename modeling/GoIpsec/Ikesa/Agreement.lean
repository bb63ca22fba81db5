import GoIpsec.Ikesa.Keys

/-!
# Agreement in the MODP group

Two key pairs of group 14 agree on octets, not only on numbers: public values and
secrets keep their leading zeros, so both have the length of the modulus whatever they
are.  A peer value is refused exactly where it could not come from such a pair, or would
collapse the secret.

The modulus is odd.  That alone keeps a power of the generator from vanishing.
-/

namespace GoIpsec.Ikesa

open Golang

/-! ## What is drawn -/

theorem newDH_modp {c : Crypto} {r : RandRead} {d : DH} (h : newDH c dhGroup14 r = .ok d) :
    ∃ a, 2 ≤ a ∧ a ≤ modp2048P - 2 ∧ d.priv = .modp a ∧
      d.pub = putBE modp2048Len (modp2048G ^ a % modp2048P) := by
  rw [newDH, if_pos rfl] at h
  simp only [bind_eq_ok, pure_eq_ok, Except.ok.injEq] at h
  obtain ⟨b, -, rfl⟩ := h
  have hlt : getBE b % (modp2048P - 3) < modp2048P - 3 := Nat.mod_lt _ (by decide +kernel)
  refine ⟨getBE b % (modp2048P - 3) + 2, Nat.le_add_left _ _, by omega, rfl, ?_⟩
  rw [expMod_eq, leftPad_modp]

/-- Any octets can be read. -/
theorem full_of_bytes (b : Bytes) : RandRead.full (some fun i => b.getD i 0) b.length = .ok b := by
  refine congrArg Except.ok (List.ext_getElem (by simp) fun i hi _ => ?_)
  rw [List.getElem_map, List.getElem_range, List.getD_eq_getElem?_getD, List.getElem?_eq_getElem,
    Option.getD_some]

theorem newDH_draws {c : Crypto} {a : Nat} (hlo : 2 ≤ a) (hhi : a ≤ modp2048P - 2) :
    ∃ r d, newDH c dhGroup14 r = .ok d ∧ d.priv = .modp a := by
  have hp : modp2048P < 256 ^ modp2048Len := by decide +kernel
  have hp3 : 3 < modp2048P := by decide +kernel
  have hread := full_of_bytes (putBE modp2048Len (a - 2))
  rw [length_putBE] at hread
  have hback : getBE (putBE modp2048Len (a - 2)) % (modp2048P - 3) + 2 = a := by
    rw [getBE_putBE_of_lt (by omega), Nat.mod_eq_of_lt (by omega)]
    omega
  refine ⟨_, _, by rw [newDH, if_pos rfl, hread, ok_bind]; rfl, ?_⟩
  rw [hback]

/-! ## Values in range -/

theorem coprime_modp (a : Nat) : Nat.Coprime modp2048P (modp2048G ^ a) :=
  Nat.Coprime.pow_right a (by decide +kernel)

/-- A power of the generator that is neither `1` nor `p - 1` is in the range `shared`
accepts. -/
theorem power_in_range {a : Nat} (h1 : modp2048G ^ a % modp2048P ≠ 1)
    (hp1 : modp2048G ^ a % modp2048P ≠ modp2048P - 1) :
    ¬(modp2048G ^ a % modp2048P ≤ 1 ∨ modp2048G ^ a % modp2048P > modp2048P - 2) := by
  have hlt : modp2048G ^ a % modp2048P < modp2048P := Nat.mod_lt _ (by decide +kernel)
  have h0 : modp2048G ^ a % modp2048P ≠ 0 := fun h0 =>
    absurd ((coprime_modp a).eq_one_of_dvd (Nat.dvd_of_mod_eq_zero h0)) (by decide +kernel)
  omega

theorem shared_of_power {c : Crypto} {d : DH} {a b : Nat} (hd : d.priv = .modp a)
    (h1 : modp2048G ^ b % modp2048P ≠ 1) (hp1 : modp2048G ^ b % modp2048P ≠ modp2048P - 1) :
    d.shared c (putBE modp2048Len (modp2048G ^ b % modp2048P)) =
      .ok (putBE modp2048Len (modp2048G ^ (a * b) % modp2048P)) := by
  rw [DH.shared, hd]
  dsimp only
  rw [if_neg (by simp), getBE_putBE_modp, if_neg (power_in_range h1 hp1), expMod_eq, leftPad_modp,
    ← Nat.pow_mod, ← Nat.pow_mul, Nat.mul_comm b a]

theorem shared_refuses {c : Crypto} {d : DH} {peer : Bytes} (hd : d.group = dhGroup14)
    (hpeer : peer.length ≠ modp2048Len ∨ getBE peer < 2 ∨ modp2048P - 2 < getBE peer) :
    ∃ msg, d.shared c peer = fail msg := by
  rw [DH.shared]
  cases hpriv : d.priv with
  | x25519 key =>
      rw [DH.group, hpriv] at hd
      exact absurd (show dhGroup31 = dhGroup14 from hd) (by decide)
  | modp a =>
      dsimp only
      by_cases hlen : peer.length ≠ modp2048Len
      · rw [if_pos hlen]
        exact ⟨_, rfl⟩
      · rw [if_neg hlen, if_pos (by omega)]
        exact ⟨_, rfl⟩

/-- The exponents `newDH` draws are those of `[2, p - 2]`.  Two pairs it makes have public
values of 256 octets, and when neither is `1` or `p - 1` each side computes from the
other's the same 256 octets, the encoding of `2 ^ (a b) mod p`.  A peer value of another
length or outside `[2, p - 2]` is refused. -/
theorem modp_agreement (c : Crypto) :
    (∀ a, (∃ r d, newDH c dhGroup14 r = .ok d ∧ d.priv = .modp a) ↔
      2 ≤ a ∧ a ≤ modp2048P - 2) ∧
    (∀ r₁ r₂ d₁ d₂ a b, newDH c dhGroup14 r₁ = .ok d₁ → newDH c dhGroup14 r₂ = .ok d₂ →
      d₁.priv = .modp a → d₂.priv = .modp b →
      d₁.pub.length = 256 ∧ d₂.pub.length = 256 ∧
      (getBE d₁.pub ≠ 1 → getBE d₁.pub ≠ modp2048P - 1 →
        getBE d₂.pub ≠ 1 → getBE d₂.pub ≠ modp2048P - 1 →
        ∃ secret, d₁.shared c d₂.pub = .ok secret ∧ d₂.shared c d₁.pub = .ok secret ∧
          secret.length = 256 ∧ getBE secret = 2 ^ (a * b) % modp2048P)) ∧
    (∀ (d : DH) (peer : Bytes), d.group = dhGroup14 →
      (peer.length ≠ 256 ∨ getBE peer < 2 ∨ modp2048P - 2 < getBE peer) →
      ∃ msg, d.shared c peer = fail msg) := by
  refine ⟨fun a => ⟨?_, fun h => newDH_draws h.1 h.2⟩, ?_, fun d peer => shared_refuses⟩
  · rintro ⟨r, d, hnew, hpriv⟩
    obtain ⟨a', hlo, hhi, hpriv', -⟩ := newDH_modp hnew
    cases hpriv.symm.trans hpriv'
    exact ⟨hlo, hhi⟩
  · intro r₁ r₂ d₁ d₂ a b h₁ h₂ ha hb
    obtain ⟨a', -, -, ha', hpub₁⟩ := newDH_modp h₁
    obtain ⟨b', -, -, hb', hpub₂⟩ := newDH_modp h₂
    cases ha.symm.trans ha'
    cases hb.symm.trans hb'
    rw [hpub₁, hpub₂, getBE_putBE_modp, getBE_putBE_modp]
    refine ⟨length_putBE .., length_putBE .., fun h1 hp1 h1' hp1' => ?_⟩
    refine ⟨_, shared_of_power ha h1' hp1', ?_, length_putBE .., getBE_putBE_modp _⟩
    rw [shared_of_power hb h1 hp1, Nat.mul_comm b a]

/-- Exponents 2 and 5: the public values are 4 and 32, the secret is 1024. -/
theorem modp_agreement_small :
    ∃ d₁ d₂, newDH Crypto.sample dhGroup14 (some fun _ => 0) = .ok d₁ ∧
      newDH Crypto.sample dhGroup14 (some fun i => if i = 255 then 3 else 0) = .ok d₂ ∧
      ∃ secret, d₁.shared Crypto.sample d₂.pub = .ok secret ∧
        d₂.shared Crypto.sample d₁.pub = .ok secret ∧ secret.length = 256 ∧
        getBE secret = 2 ^ (2 * 5) % modp2048P := by
  refine ⟨_, _, rfl, rfl, ?_⟩
  exact ((modp_agreement Crypto.sample).2.1 (some fun _ => 0)
      (some fun i => if i = 255 then 3 else 0) _ _ 2 5 rfl rfl (by decide +kernel)
      (by decide +kernel)).2.2
    (by decide +kernel) (by decide +kernel) (by decide +kernel) (by decide +kernel)

end GoIpsec.Ikesa
