import GoIpsec.Esp.Packet

/-!
# The trailer

The plaintext of a packet is the inner datagram, the pad octets 1, 2, …, their number,
and the Next Header.  The number of pad octets stands at a fixed place from the end, so
the trailer is read from there, and a plaintext has at most one reading.  Inner data that
looks like padding is not taken for it.
-/

namespace GoIpsec.Esp

open Golang

@[simp] theorem length_monotonicPad (n : Nat) : (monotonicPad n).length = n := by
  simp [monotonicPad]

theorem length_fillTrailer (inner : Bytes) (padLen : Nat) :
    (fillTrailer inner padLen).length = inner.length + padLen + 2 := by
  simp [fillTrailer]
  omega

theorem padLenFor_lt {block : Nat} (h : 0 < block) (inner : Bytes) :
    padLenFor block inner < block := Nat.mod_lt _ h

theorem length_fillTrailer_mod (inner : Bytes) :
    (fillTrailer inner (padLenFor 16 inner)).length % 16 = 0 := by
  rw [length_fillTrailer, padLenFor]
  omega

theorem length_fillTrailer_mod_four (inner : Bytes) :
    (fillTrailer inner (padLenFor 4 inner)).length % 4 = 0 := by
  rw [length_fillTrailer, padLenFor]
  omega

theorem nextHeaderFor_eq (inner : Bytes) :
    nextHeaderFor inner = nextHeaderIPv4 ∨ nextHeaderFor inner = nextHeaderIPv6 := by
  unfold nextHeaderFor
  split
  · exact .inl rfl
  · split
    · exact .inr rfl
    · exact .inl rfl

/-! ## The grammar -/

/-- `plain` is `inner` with `n` pad octets and the Next Header `nh` behind it. -/
structure Trailer (plain inner : Bytes) (n : Nat) (nh : UInt8) : Prop where
  pad : n ≤ 255
  next : nh = 4 ∨ nh = 41
  split : plain = inner ++ (monotonicPad n ++ [UInt8.ofNat n, nh])

namespace Trailer

variable {plain inner inner' : Bytes} {n n' : Nat} {nh nh' : UInt8}

theorem length (h : Trailer plain inner n nh) : plain.length = inner.length + n + 2 := by
  rw [h.split]
  simp
  omega

/-- The two last octets. -/
theorem index_last (h : Trailer plain inner n nh) :
    index plain (plain.length - 2) = .ok (UInt8.ofNat n) ∧ index plain (plain.length - 1) = .ok nh := by
  have htail (i : Nat) (x : UInt8) (hx : index [UInt8.ofNat n, nh] i = .ok x) :
      index plain (inner.length + n + i) = .ok x := by
    rw [h.split, index_append_of_ge (by omega), index_append_of_ge (by simp; omega), ← hx]
    congr 1
    simp
    omega
  have hlen := h.length
  constructor
  · rw [show plain.length - 2 = inner.length + n + 0 by omega]
    exact htail 0 _ rfl
  · rw [show plain.length - 1 = inner.length + n + 1 by omega]
    exact htail 1 _ rfl

/-- The number of pad octets is read off the end, and what is in front of them is left. -/
theorem unique (h : Trailer plain inner n nh) (h' : Trailer plain inner' n' nh') :
    inner = inner' ∧ n = n' ∧ nh = nh' := by
  have hoctet : UInt8.ofNat n = UInt8.ofNat n' :=
    Except.ok.inj (h.index_last.1.symm.trans h'.index_last.1)
  have hn : n = n' := by
    have hval := congrArg UInt8.toNat hoctet
    rw [UInt8.toNat_ofNat', UInt8.toNat_ofNat'] at hval
    have := h.pad
    have := h'.pad
    omega
  have hnh : nh = nh' := Except.ok.inj (h.index_last.2.symm.trans h'.index_last.2)
  subst hn hnh
  exact ⟨List.append_cancel_right (h.split.symm.trans h'.split), rfl, rfl⟩

theorem parse (h : Trailer plain inner n nh) : parseTrailer plain = .ok inner := by
  have hlen := h.length
  have hpad : (UInt8.ofNat n).toNat = n := by
    have := h.pad
    rw [UInt8.toNat_ofNat']
    omega
  have hpads : slice plain (plain.length - 2 - n) (plain.length - 2) = .ok (monotonicPad n) := by
    rw [show plain.length - 2 = inner.length + n by omega, Nat.add_sub_cancel, h.split]
    exact slice_mid rfl (by simp)
  have hinner : slice plain 0 (plain.length - n - 2) = .ok inner := by
    rw [show plain.length - n - 2 = inner.length by omega, h.split, slice_append_of_le (Nat.le_refl _),
      slice_all rfl]
  have hnh : ¬ (nh ≠ nextHeaderIPv4 ∧ nh ≠ nextHeaderIPv6) := by
    rintro ⟨h4, h6⟩
    rcases h.next with h | h
    · exact h4 h
    · exact h6 h
  rw [parseTrailer, if_neg (by omega)]
  simp only [h.index_last.1, h.index_last.2, ok_bind, hpad]
  rw [if_neg (by omega), hpads, ok_bind, if_neg (by simp), if_neg hnh, hinner]

end Trailer

/-- What is accepted has a trailer. -/
theorem trailer_of_parseTrailer {plain inner : Bytes} (h : parseTrailer plain = .ok inner) :
    ∃ n nh, Trailer plain inner n nh := by
  unfold parseTrailer at h
  split at h
  · cases h
  rename_i hlong
  -- everything is read at a distance from the two last octets
  obtain ⟨body, pad, nh, rfl⟩ : ∃ body pad nh, plain = body ++ [pad, nh] := by
    obtain ⟨pad, nh, htail⟩ := List.length_eq_two.mp
      (show (plain.drop (plain.length - 2)).length = 2 by rw [List.length_drop]; omega)
    exact ⟨_, pad, nh, by rw [← htail, List.take_append_drop]⟩
  have hpadAt : (body ++ [pad, nh]).length - 2 = body.length := by simp
  have hnextAt : (body ++ [pad, nh]).length - 1 = body.length + 1 := by simp
  have hindex (i : Nat) : index (body ++ [pad, nh]) (body.length + i) = index [pad, nh] i := by
    rw [index_append_of_ge (by omega), Nat.add_sub_cancel_left]
  simp only [hpadAt, hnextAt, hindex 1, show index (body ++ [pad, nh]) body.length = .ok pad from hindex 0,
    index_cons_succ, index_cons_zero, ok_bind] at h
  split at h
  · cases h
  rename_i hrange
  rw [List.length_append, List.length_cons, List.length_singleton] at hrange h
  rw [slice_append_of_le (Nat.le_refl _), slice_ok (by omega) (Nat.le_refl _), ok_bind,
    List.take_of_length_le (Nat.le_refl _)] at h
  split at h
  · cases h
  rename_i hmono
  split at h
  · cases h
  rename_i hnext
  rw [slice_append_of_le (by omega), slice_ok (Nat.zero_le _) (by omega), List.drop_zero] at h
  refine ⟨pad.toNat, nh, ⟨?_, ?_, ?_⟩⟩
  · have := pad.toNat_lt
    omega
  · rcases not_and_or.mp hnext with h4 | h6
    · exact .inl (not_not.mp h4)
    · exact .inr (not_not.mp h6)
  · rw [← Except.ok.inj h, ← not_not.mp hmono, UInt8.ofNat_toNat, ← List.append_assoc,
      show body.length + (0 + 1 + 1) - pad.toNat - 2 = body.length - pad.toNat by omega,
      List.take_append_drop]

/-- The self-describing trailer is stripped again, for every inner datagram. -/
theorem parseTrailer_fillTrailer (inner : Bytes) {padLen : Nat} (h : padLen ≤ 255) :
    parseTrailer (fillTrailer inner padLen) = .ok inner :=
  Trailer.parse ⟨h, nextHeaderFor_eq inner, rfl⟩

/-- The parser accepts the plaintexts with a trailer, each of which has one reading, and
returns what is in front of it.  So it takes off what either encryptor has put on, which
makes the plaintext as long as its cipher asks for. -/
theorem parseTrailer_grammar :
    (∀ plain inner, parseTrailer plain = .ok inner ↔ ∃ n nh, Trailer plain inner n nh) ∧
    (∀ plain inner inner' n n' nh nh', Trailer plain inner n nh → Trailer plain inner' n' nh' →
      inner = inner' ∧ n = n' ∧ nh = nh') ∧
    ∀ inner,
      (parseTrailer (fillTrailer inner (padLenFor espBlock inner)) = .ok inner ∧
        (fillTrailer inner (padLenFor espBlock inner)).length % espBlock = 0) ∧
      (parseTrailer (fillTrailer inner (padLenFor 4 inner)) = .ok inner ∧
        (fillTrailer inner (padLenFor 4 inner)).length % 4 = 0) := by
  refine ⟨fun plain inner => ⟨trailer_of_parseTrailer, ?_⟩, ?_, fun inner => ⟨⟨?_, ?_⟩, ?_, ?_⟩⟩
  · rintro ⟨n, nh, h⟩
    exact h.parse
  · intro plain inner inner' n n' nh nh' h h'
    exact h.unique h'
  · have hlt := padLenFor_lt (show 0 < espBlock by decide) inner
    exact parseTrailer_fillTrailer inner (by unfold espBlock at *; omega)
  · exact length_fillTrailer_mod inner
  · have hlt := padLenFor_lt (show 0 < 4 by decide) inner
    exact parseTrailer_fillTrailer inner (by omega)
  · exact length_fillTrailer_mod_four inner

/-- Inner data that ends like padding stays inner data. -/
example : parseTrailer [0x45, 1, 2, 2, 1, 1, 4] = .ok [0x45, 1, 2, 2] := by decide

end GoIpsec.Esp
