import Mathlib.Data.Nat.Bitwise
import GoIpsec.Lib.Go

/-!
# Bitmaps of 64-bit words

A bitmap is a list of words, the lowest first.  `bit` reads one bit of it by its
position in the whole.  `bit_shift` says what a shift of the whole by any number
of bits looks like word by word: each word gets the low part of one word and the
bits that spill over from the one below it.
-/

namespace Golang

/-- Bit `o` of a bitmap.  Beyond its end every bit is clear. -/
def bit (ws : List UInt64) (o : Nat) : Bool := (ws.getD (o / 64) 0).toNat.testBit (o % 64)

theorem bit_replicate_zero (n o : Nat) : bit (List.replicate n 0) o = false := by
  have hget : (List.replicate n (0 : UInt64)).getD (o / 64) 0 = 0 := by
    rw [List.getD_eq_getElem?_getD, List.getElem?_replicate]
    split <;> rfl
  rw [bit, hget]
  exact Nat.zero_testBit _

theorem getD_set {ws : List UInt64} {i : Nat} (hi : i < ws.length) (x : UInt64) (j : Nat) :
    (ws.set i x).getD j 0 = if j = i then x else ws.getD j 0 := by
  rw [List.getD_eq_getElem?_getD, List.getElem?_set]
  by_cases h : i = j
  · subst h
    simp [hi]
  · rw [if_neg h, if_neg (Ne.symm h), List.getD_eq_getElem?_getD]

/-! ## Single words -/

theorem testBit_shiftLeft_word (x : UInt64) {s k : Nat} (hs : s < 64) (hk : k < 64) :
    (x <<< UInt64.ofNat s).toNat.testBit k = (decide (s ≤ k) && x.toNat.testBit (k - s)) := by
  have hs' : (UInt64.ofNat s).toNat % 64 = s := by rw [UInt64.toNat_ofNat']; omega
  rw [UInt64.toNat_shiftLeft, hs', Nat.testBit_mod_two_pow, Nat.testBit_shiftLeft]
  simp [hk]

theorem testBit_shiftRight_word (x : UInt64) {s : Nat} (hs : s < 64) (k : Nat) :
    (x >>> UInt64.ofNat s).toNat.testBit k = x.toNat.testBit (s + k) := by
  have hs' : (UInt64.ofNat s).toNat % 64 = s := by rw [UInt64.toNat_ofNat']; omega
  rw [UInt64.toNat_shiftRight, hs', Nat.testBit_shiftRight]

theorem testBit_word_of_le (x : UInt64) {k : Nat} (h : 64 ≤ k) : x.toNat.testBit k = false :=
  Nat.testBit_lt_two_pow (Nat.lt_of_lt_of_le x.toNat_lt (Nat.pow_le_pow_right (by omega) h))

theorem toNat_one_shiftLeft {s : Nat} (hs : s < 64) :
    ((1 : UInt64) <<< UInt64.ofNat s).toNat = 2 ^ s := by
  have hs' : (UInt64.ofNat s).toNat % 64 = s := by rw [UInt64.toNat_ofNat']; omega
  rw [UInt64.toNat_shiftLeft, hs', UInt64.toNat_one, Nat.one_shiftLeft]
  exact Nat.mod_eq_of_lt (Nat.pow_lt_pow_right (by omega) hs)

/-- The test `x & (1 << s) ≠ 0`. -/
theorem and_one_shiftLeft_ne_zero (x : UInt64) {s : Nat} (hs : s < 64) :
    (x &&& (1 : UInt64) <<< UInt64.ofNat s ≠ 0) ↔ x.toNat.testBit s = true := by
  rw [ne_eq, ← UInt64.toNat_inj, UInt64.toNat_and, toNat_one_shiftLeft hs, Nat.and_two_pow]
  cases x.toNat.testBit s with
  | false => simp
  | true => simp

/-! ## Bits of a bitmap -/

/-- Setting a bit of a bitmap. -/
theorem bit_set_or {ws : List UInt64} {p : Nat} (hp : p < 64 * ws.length) (o : Nat) :
    bit (ws.set (p / 64) (ws.getD (p / 64) 0 ||| (1 : UInt64) <<< UInt64.ofNat (p % 64))) o =
      (decide (o = p) || bit ws o) := by
  rw [bit, getD_set (by omega)]
  by_cases h : o / 64 = p / 64
  · have hbit : decide (p % 64 = o % 64) = decide (o = p) := by
      rw [decide_eq_decide]
      omega
    rw [if_pos h, UInt64.toNat_or, Nat.testBit_or, toNat_one_shiftLeft (by omega),
      Nat.testBit_two_pow, Bool.or_comm, bit, h, hbit]
  · have hne : o ≠ p := by
      rintro rfl
      exact h rfl
    rw [if_neg h, decide_eq_false hne, Bool.false_or, bit]

/-- The bits of a word that leave it when it is shifted up by `s`. -/
def spill (x : UInt64) (s : Nat) : UInt64 := if s = 0 then 0 else x >>> UInt64.ofNat (64 - s)

theorem testBit_spill (x : UInt64) {s : Nat} (hs : s < 64) (k : Nat) :
    (spill x s).toNat.testBit k = (decide (k < s) && x.toNat.testBit (64 - s + k)) := by
  unfold spill
  split
  · subst_vars
    simp
  · rw [testBit_shiftRight_word x (by omega)]
    by_cases hk : k < s
    · simp [hk]
    · rw [testBit_word_of_le x (by omega), decide_eq_false hk]
      rfl

/-- A bitmap whose words are those of `ws` moved up by `n / 64` words and `n % 64`
bits is `ws` moved up by `n` bits. -/
theorem bit_shift {ws ws' : List UInt64} {n : Nat}
    (h : ∀ i < ws.length, ws'.getD i 0 =
      if n / 64 ≤ i then
        ws.getD (i - n / 64) 0 <<< UInt64.ofNat (n % 64) |||
          (if n / 64 < i then spill (ws.getD (i - n / 64 - 1) 0) (n % 64) else 0)
      else 0)
    {o : Nat} (ho : o < 64 * ws.length) :
    bit ws' o = (decide (n ≤ o) && bit ws (o - n)) := by
  rw [bit, h (o / 64) (by omega)]
  by_cases hw : n / 64 ≤ o / 64
  · rw [if_pos hw, UInt64.toNat_or, Nat.testBit_or, testBit_shiftLeft_word _ (by omega) (by omega)]
    by_cases hk : n % 64 ≤ o % 64
    · -- no borrow: the bit stays in the word `n / 64` below
      have hspill : (if n / 64 < o / 64 then spill (ws.getD (o / 64 - n / 64 - 1) 0) (n % 64)
          else 0).toNat.testBit (o % 64) = false := by
        split
        · rw [testBit_spill _ (by omega), decide_eq_false (by omega)]
          rfl
        · exact Nat.zero_testBit _
      have hword : (o - n) / 64 = o / 64 - n / 64 := by omega
      have hbit : (o - n) % 64 = o % 64 - n % 64 := by omega
      rw [hspill, Bool.or_false, decide_eq_true hk, decide_eq_true (by omega : n ≤ o), bit, hword,
        hbit]
    · rw [decide_eq_false hk, Bool.false_and, Bool.false_or]
      by_cases hlt : n / 64 < o / 64
      · -- borrow: the bit spills over from one word further down
        have hword : (o - n) / 64 = o / 64 - n / 64 - 1 := by omega
        have hbit : (o - n) % 64 = 64 - n % 64 + o % 64 := by omega
        rw [if_pos hlt, testBit_spill _ (by omega), decide_eq_true (by omega : o % 64 < n % 64),
          decide_eq_true (by omega : n ≤ o), bit, hword, hbit]
      · rw [if_neg hlt, decide_eq_false (by omega), Bool.false_and]
        exact Nat.zero_testBit _
  · rw [if_neg hw, decide_eq_false (by omega), Bool.false_and]
    exact Nat.zero_testBit _

end Golang
