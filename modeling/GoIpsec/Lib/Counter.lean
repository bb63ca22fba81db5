import Mathlib.Data.List.Nodup
import Mathlib.Data.UInt

/-!
# The values of a 64-bit counter

A counter gives out its values in order, and wraps.  Beside its values stands the number
of steps it has made, which does not wrap.  As long as that number has not passed the
range of the counter, no value comes twice (`Rising.nodup`), also if some of them were
given out to no one.
-/

namespace Golang

/-- The values `xs`, newest first, were given out by a counter that started at 0 and has
made `n` steps. -/
def Rising (n : Nat) (xs : List UInt64) : Prop :=
  ∃ ks : List Nat, xs = ks.map UInt64.ofNat ∧ ks.Pairwise (· > ·) ∧ ∀ k ∈ ks, k < n

namespace Rising

variable {n m : Nat} {xs : List UInt64}

theorem nil (n : Nat) : Rising n [] := ⟨[], rfl, List.Pairwise.nil, nofun⟩

theorem mono (h : Rising n xs) (hnm : n ≤ m) : Rising m xs := by
  obtain ⟨ks, hxs, hks, hlt⟩ := h
  exact ⟨ks, hxs, hks, fun k hk => Nat.lt_of_lt_of_le (hlt k hk) hnm⟩

/-- The counter gives out the value it stands at, and makes a step. -/
theorem cons (h : Rising n xs) : Rising (n + 1) (UInt64.ofNat n :: xs) := by
  obtain ⟨ks, rfl, hks, hlt⟩ := h
  refine ⟨n :: ks, rfl, List.pairwise_cons.mpr ⟨hlt, hks⟩, fun k hk => ?_⟩
  rcases List.mem_cons.mp hk with rfl | hk
  · exact Nat.lt_succ_self k
  · exact Nat.lt_succ_of_lt (hlt k hk)

theorem nodup (h : Rising n xs) (hn : n ≤ 2 ^ 64) : xs.Nodup := by
  obtain ⟨ks, rfl, hks, hlt⟩ := h
  have hnodup : ks.Nodup := hks.imp fun h => Nat.ne_of_gt h
  refine hnodup.map_on fun a ha b hb heq => ?_
  have hval := congrArg UInt64.toNat heq
  rwa [UInt64.toNat_ofNat_of_lt' (Nat.lt_of_lt_of_le (hlt a ha) hn),
    UInt64.toNat_ofNat_of_lt' (Nat.lt_of_lt_of_le (hlt b hb) hn)] at hval

end Rising

end Golang
