import GoIpsec.Lib.AntiReplay
import GoIpsec.Lib.Bits

/-!
# The anti-replay window

The window keeps the highest sequence number accepted and a bitmap in which bit
`o` stands for the number `o` below it.  A higher number moves the whole bitmap
up; the vacated positions are clear.

`Represents` connects a window to the set of numbers taken so far.  One call of
`Accept` keeps it and answers what an anti-replay window of that width must
answer (`Represents.accept`), so a run of calls does (`Represents.acceptAll`).
Every index into the bitmap is checked in the model, so an answer at all means
that none was out of range.
-/

namespace GoIpsec.Esp

open Golang

structure ReplayWindow where
  size : UInt32
  /-- The highest accepted sequence number. -/
  last : UInt32
  /-- Bit `o` stands for the sequence number `last - o`. -/
  bits : List UInt64
deriving Repr, DecidableEq

def maxReplayWindow : UInt32 := (1 : UInt32) <<< 20

def newReplayWindow (size : UInt32) : ReplayWindow :=
  let size := if size < 64 then 64 else size
  let size := if size > maxReplayWindow then maxReplayWindow else size
  let words : UInt64 := (size.toUInt64 + 63) / 64
  { size := (words * 64).toUInt32, last := 0, bits := List.replicate words.toNat 0 }

/-! ## Shifting the bitmap -/

/-- `for i := top; i > words; i--`, each word taking the two words it overlaps.
The words it reads are at or below the one it writes, so they are still the old
ones. -/
def shiftWords (words bits : Nat) : Nat → List UInt64 → Go (List UInt64)
  | 0, b => .ok b
  | i + 1, b =>
      if i + 1 > words then do
        let hi ← index b (i + 1 - words)
        let lo ← index b (i + 1 - words - 1)
        let b ← setAt b (i + 1) (hi <<< UInt64.ofNat bits ||| lo >>> UInt64.ofNat (64 - bits))
        shiftWords words bits i b
      else .ok b

/-- `for i := range n { b[i] = 0 }`. -/
def zeroWords : Nat → List UInt64 → Go (List UInt64)
  | 0, b => .ok b
  | n + 1, b => do setAt (← zeroWords n b) n 0

/-- Shift the bitmap toward higher offsets by `n` bits. -/
def shiftUp (b : List UInt64) (n : Nat) : Go (List UInt64) :=
  let words := n / 64
  let bits := n % 64
  if n = 0 then .ok b
  else if words ≥ b.length then zeroWords b.length b
  else if bits = 0 then
    -- copy(b[words:], b[:len(b)-words])
    zeroWords words (b.take words ++ b.take (b.length - words))
  else do
    let b ← shiftWords words bits (b.length - 1) b
    let b ← setAt b words ((← index b 0) <<< UInt64.ofNat bits)
    zeroWords words b

/-! ## Accepting a sequence number -/

def ReplayWindow.setBit (w : ReplayWindow) (offset : UInt32) : Go ReplayWindow := do
  let i := offset.toNat / 64
  let word ← index w.bits i
  let bits ← setAt w.bits i (word ||| 1 <<< UInt64.ofNat (offset.toNat % 64))
  return { w with bits }

def ReplayWindow.getBit (w : ReplayWindow) (offset : UInt32) : Go Bool := do
  let word ← index w.bits (offset.toNat / 64)
  return word &&& 1 <<< UInt64.ofNat (offset.toNat % 64) ≠ 0

/-- Whether `seq` is acceptable, with the window after the call. -/
def ReplayWindow.accept (w : ReplayWindow) (seq : UInt32) : Go (Bool × ReplayWindow) :=
  if seq = 0 then .ok (false, w)
  else if seq > w.last then do
    let bits ← shiftUp w.bits (seq - w.last).toNat
    let w ← ReplayWindow.setBit { w with last := seq, bits } 0
    return (true, w)
  else if seq = w.last then .ok (false, w)
  else do
    let offset := w.last - seq
    if offset ≥ w.size then return (false, w)
    else if ← w.getBit offset then return (false, w)
    else return (true, ← w.setBit offset)

/-- A sequence of calls, with the answer of each. -/
def ReplayWindow.acceptAll (w : ReplayWindow) : List UInt32 → Go (List Bool × ReplayWindow)
  | [] => .ok ([], w)
  | seq :: seqs => do
      let (ok, w) ← w.accept seq
      let (oks, w) ← w.acceptAll seqs
      return (ok :: oks, w)

/-! ## The shift, word by word -/

theorem shiftWords_spec (words bits : Nat) :
    ∀ (i : Nat) (b : List UInt64), i < b.length → ∃ b', shiftWords words bits i b = .ok b' ∧
      b'.length = b.length ∧ ∀ j, b'.getD j 0 =
        if words < j ∧ j ≤ i then
          b.getD (j - words) 0 <<< UInt64.ofNat bits |||
            b.getD (j - words - 1) 0 >>> UInt64.ofNat (64 - bits)
        else b.getD j 0
  | 0, b, _ => ⟨b, rfl, rfl, fun j => by rw [if_neg (by omega)]⟩
  | i + 1, b, h => by
      by_cases hw : i + 1 > words
      · have hget (k : Nat) (hk : k < b.length) : index b k = .ok (b.getD k 0) := by
          rw [index_ok hk, List.getD_eq_getElem _ _ hk]
        generalize hx : b.getD (i + 1 - words) 0 <<< UInt64.ofNat bits |||
          b.getD (i + 1 - words - 1) 0 >>> UInt64.ofNat (64 - bits) = x
        obtain ⟨b', hb', hlen, hall⟩ :=
          shiftWords_spec words bits i (b.set (i + 1) x) (by rw [List.length_set]; omega)
        refine ⟨b', ?_, by rw [hlen, List.length_set], fun j => ?_⟩
        · rw [shiftWords, if_pos hw, hget _ (by omega), ok_bind, hget _ (by omega), ok_bind, hx,
            setAt_ok h, ok_bind, hb']
        rw [hall j]
        simp only [getD_set h]
        by_cases hj : words < j ∧ j ≤ i
        · -- the rest of the loop reads only words below the one just written
          have hhi : j - words ≠ i + 1 := by omega
          have hlo : j - words - 1 ≠ i + 1 := by omega
          rw [if_pos hj, if_neg hhi, if_neg hlo, if_pos (by omega)]
        · rw [if_neg hj]
          by_cases hji : j = i + 1
          · rw [if_pos hji, if_pos (by omega), hji, hx]
          · rw [if_neg hji, if_neg (by omega)]
      · refine ⟨b, ?_, rfl, fun j => ?_⟩
        · rw [shiftWords, if_neg hw]
        · rw [if_neg (by omega)]

theorem zeroWords_spec (b : List UInt64) :
    ∀ n, n ≤ b.length → ∃ b', zeroWords n b = .ok b' ∧ b'.length = b.length ∧
      ∀ j, b'.getD j 0 = if j < n then 0 else b.getD j 0
  | 0, _ => ⟨b, rfl, rfl, fun j => by rw [if_neg (by omega)]⟩
  | n + 1, h => by
      obtain ⟨b', hb', hlen, hall⟩ := zeroWords_spec b n (by omega)
      refine ⟨b'.set n 0, ?_, by rw [List.length_set, hlen], fun j => ?_⟩
      · rw [zeroWords, hb', ok_bind, setAt_ok (by omega)]
      · rw [getD_set (by omega), hall j]
        by_cases hj : j = n
        · rw [if_pos hj, if_pos (by omega)]
        · rw [if_neg hj]
          by_cases hlt : j < n
          · rw [if_pos hlt, if_pos (by omega)]
          · rw [if_neg hlt, if_neg (by omega)]

/-- A shift moves every bit up by `n` and clears what it vacates, for every `n`,
also beyond the end of the bitmap. -/
theorem shiftUp_spec (b : List UInt64) (n : Nat) :
    ∃ b', shiftUp b n = .ok b' ∧ b'.length = b.length ∧
      ∀ o < 64 * b.length, bit b' o = (decide (n ≤ o) && bit b (o - n)) := by
  unfold shiftUp
  by_cases h0 : n = 0
  · subst h0
    exact ⟨b, rfl, rfl, fun o _ => by simp⟩
  simp only [if_neg h0]
  by_cases hwords : n / 64 ≥ b.length
  · obtain ⟨b', hb', hlen, hall⟩ := zeroWords_spec b b.length (Nat.le_refl _)
    refine ⟨b', by rw [if_pos hwords, hb'], hlen, fun o ho => ?_⟩
    rw [decide_eq_false (by omega), Bool.false_and, bit, hall, if_pos (by omega)]
    exact Nat.zero_testBit _
  simp only [if_neg hwords]
  by_cases hbits : n % 64 = 0
  · obtain ⟨b', hb', hlen, hall⟩ := zeroWords_spec
      (b.take (n / 64) ++ b.take (b.length - n / 64)) (n / 64) (by simp; omega)
    have hlen' : b'.length = b.length := by rw [hlen]; simp; omega
    refine ⟨b', by rw [if_pos hbits, hb'], hlen', fun o ho => bit_shift (fun i hi => ?_) ho⟩
    rw [hall, hbits]
    by_cases hi' : i < n / 64
    · rw [if_pos hi', if_neg (by omega)]
    · have hmoved : (b.take (n / 64) ++ b.take (b.length - n / 64)).getD i 0 =
          b.getD (i - n / 64) 0 := by
        rw [List.getD_eq_getElem?_getD, List.getElem?_append_right (by simp; omega),
          List.getElem?_take_of_lt (by simp; omega), List.getD_eq_getElem?_getD, List.length_take,
          Nat.min_eq_left (by omega)]
      rw [if_neg hi', if_pos (by omega), hmoved]
      simp [spill]
  · obtain ⟨b₁, hb₁, hlen₁, hall₁⟩ := shiftWords_spec (n / 64) (n % 64) (b.length - 1) b (by omega)
    have h0₁ : index b₁ 0 = .ok (b.getD 0 0) := by
      rw [index_ok (by omega), ← List.getD_eq_getElem _ 0, hall₁, if_neg (by omega)]
    obtain ⟨b', hb', hlen, hall⟩ := zeroWords_spec
      (b₁.set (n / 64) (b.getD 0 0 <<< UInt64.ofNat (n % 64))) (n / 64)
      (by rw [List.length_set]; omega)
    refine ⟨b', ?_, by rw [hlen, List.length_set, hlen₁], fun o ho => bit_shift (fun i hi => ?_) ho⟩
    · rw [if_neg hbits, hb₁, ok_bind, h0₁, ok_bind, setAt_ok (by omega), ok_bind, hb']
    rw [hall, getD_set (by omega), hall₁]
    by_cases hi' : i < n / 64
    · rw [if_pos hi', if_neg (by omega)]
    rw [if_neg hi']
    by_cases heq : i = n / 64
    · rw [if_pos heq, if_pos (by omega), if_neg (by omega), heq, Nat.sub_self, UInt64.or_zero]
    · rw [if_neg heq, if_pos (by omega), if_pos (by omega), if_pos (by omega), spill, if_neg hbits]

/-! ## One call -/

theorem ReplayWindow.setBit_spec (w : ReplayWindow) (offset : UInt32)
    (h : offset.toNat < 64 * w.bits.length) :
    ∃ bits, w.setBit offset = .ok { w with bits } ∧ bits.length = w.bits.length ∧
      ∀ o, bit bits o = (decide (o = offset.toNat) || bit w.bits o) := by
  have hi : offset.toNat / 64 < w.bits.length := by omega
  have hget : index w.bits (offset.toNat / 64) = .ok (w.bits.getD (offset.toNat / 64) 0) := by
    rw [index_ok hi, List.getD_eq_getElem _ _ hi]
  refine ⟨_, ?_, List.length_set, bit_set_or h⟩
  rw [ReplayWindow.setBit]
  simp only [hget, ok_bind, setAt_ok hi, pure_eq_ok]

theorem ReplayWindow.getBit_spec (w : ReplayWindow) (offset : UInt32)
    (h : offset.toNat < 64 * w.bits.length) : w.getBit offset = .ok (bit w.bits offset.toNat) := by
  have hi : offset.toNat / 64 < w.bits.length := by omega
  have hget : index w.bits (offset.toNat / 64) = .ok (w.bits.getD (offset.toNat / 64) 0) := by
    rw [index_ok hi, List.getD_eq_getElem _ _ hi]
  rw [ReplayWindow.getBit, hget, ok_bind, pure_eq_ok, bit]
  congr 1
  rw [Bool.eq_iff_iff, decide_eq_true_iff]
  exact and_one_shiftLeft_ne_zero _ (Nat.mod_lt _ (by omega))

open AntiReplay (Fresh highest take takeAll)

/-- The window `w` has width `W` and has taken the numbers `taken`. -/
structure Represents (W : Nat) (w : ReplayWindow) (taken : Finset Nat) : Prop where
  size : w.size.toNat = W
  length : 64 * w.bits.length = W
  last : w.last.toNat = highest taken
  zero : 0 ∉ taken
  bits : ∀ o < W, bit w.bits o = true ↔ ∃ n ∈ taken, n + o = w.last.toNat

/-- A number above the highest moves the window up. -/
theorem Represents.accept_above {W : Nat} {w : ReplayWindow} {taken : Finset Nat}
    (h : Represents W w taken) (hW : 0 < W) {seq : UInt32} (h0 : seq ≠ 0) (hlt : seq > w.last) :
    ∃ w', w.accept seq = .ok (true, w') ∧ Represents W w' (insert seq.toNat taken) := by
  have hlt' : w.last.toNat < seq.toNat := UInt32.lt_iff_toNat_lt.mp hlt
  have hsub : (seq - w.last).toNat = seq.toNat - w.last.toNat :=
    UInt32.toNat_sub_of_le _ _ (UInt32.le_iff_toNat_le.mpr (by omega))
  have hlen := h.length
  obtain ⟨shifted, hshift, hlen₁, hbits₁⟩ := shiftUp_spec w.bits (seq - w.last).toNat
  obtain ⟨bits, hset, hlen₂, hbits₂⟩ := ReplayWindow.setBit_spec
    { w with last := seq, bits := shifted } 0 (by simp; omega)
  refine ⟨{ w with last := seq, bits }, ?_, ?_⟩
  · rw [ReplayWindow.accept, if_neg h0, if_pos hlt, hshift, ok_bind, hset]
    rfl
  refine ⟨h.size, by simp only [hlen₂, hlen₁]; omega, ?_, ?_, ?_⟩
  · have := h.last
    rw [AntiReplay.highest_insert, max_eq_left (by omega)]
  · rw [Finset.mem_insert, not_or]
    exact ⟨by omega, h.zero⟩
  intro o ho
  have hle {n : Nat} (hn : n ∈ taken) : n ≤ w.last.toNat := h.last ▸ AntiReplay.le_highest hn
  simp only [hbits₂, hbits₁ o (by omega), hsub, Bool.or_eq_true, Bool.and_eq_true,
    decide_eq_true_eq, h.bits (o - (seq.toNat - w.last.toNat)) (by omega), Finset.mem_insert,
    exists_eq_or_imp, UInt32.toNat_zero]
  refine or_congr (by omega) ⟨?_, ?_⟩
  · rintro ⟨hno, n, hn, he⟩
    exact ⟨n, hn, by omega⟩
  · rintro ⟨n, hn, he⟩
    have := hle hn
    exact ⟨by omega, n, hn, by omega⟩

/-- The bit at the distance of `n` from the highest stands for `n` itself. -/
theorem exists_mem_add_sub {taken : Finset Nat} {n last : Nat} (h : n ≤ last) :
    (∃ m ∈ taken, m + (last - n) = last) ↔ n ∈ taken := by
  constructor
  · rintro ⟨m, hm, he⟩
    have hmn : m = n := by omega
    rwa [← hmn]
  · exact fun hn => ⟨n, hn, by omega⟩

/-- A number below the highest is looked up, and recorded if its bit was clear. -/
theorem Represents.accept_below {W : Nat} {w : ReplayWindow} {taken : Finset Nat}
    (h : Represents W w taken) {seq : UInt32} (h0 : seq ≠ 0) (hlt : seq < w.last) :
    ∃ w', w.accept seq = .ok (decide (Fresh W taken seq.toNat), w') ∧
      Represents W w' (take W taken seq.toNat) ∧ (¬ Fresh W taken seq.toNat → w' = w) := by
  have hlt' : seq.toNat < w.last.toNat := UInt32.lt_iff_toNat_lt.mp hlt
  have h0' : seq.toNat ≠ 0 := fun he => h0 (UInt32.toNat_inj.mp he)
  have hoff : (w.last - seq).toNat = w.last.toNat - seq.toNat :=
    UInt32.toNat_sub_of_le _ _ (UInt32.le_iff_toNat_le.mpr (by omega))
  have hgt : ¬ seq > w.last := by rw [gt_iff_lt, UInt32.lt_iff_toNat_lt]; omega
  have hne : seq ≠ w.last := by rintro rfl; omega
  have hlast := h.last
  have hlen := h.length
  rw [ReplayWindow.accept, if_neg h0, if_neg hgt, if_neg hne]
  by_cases hold : w.last - seq ≥ w.size
  · have hold' : W ≤ w.last.toNat - seq.toNat := by
      rw [← h.size, ← hoff]
      exact UInt32.le_iff_toNat_le.mp hold
    have hf : ¬ Fresh W taken seq.toNat := by
      rintro ⟨-, -, hrange⟩
      omega
    refine ⟨w, ?_, by rwa [take, if_neg hf], fun _ => rfl⟩
    simp only [if_pos hold, decide_eq_false hf, pure_eq_ok]
  have hnew : w.last.toNat - seq.toNat < W := by
    rw [← h.size, ← hoff]
    exact Nat.lt_of_not_le fun hle => hold (UInt32.le_iff_toNat_le.mpr hle)
  have hget := w.getBit_spec (w.last - seq) (by omega)
  have hbit := h.bits (w.last.toNat - seq.toNat) hnew
  rw [exists_mem_add_sub (Nat.le_of_lt hlt'), ← hoff] at hbit
  simp only [if_neg hold, hget, ok_bind]
  by_cases hseen : seq.toNat ∈ taken
  · have hf : ¬ Fresh W taken seq.toNat := fun hf => hf.2.1 hseen
    refine ⟨w, ?_, by rwa [take, if_neg hf], fun _ => rfl⟩
    rw [if_pos (hbit.mpr hseen), decide_eq_false hf, pure_eq_ok]
  have hf : Fresh W taken seq.toNat := ⟨h0', hseen, .inr (by omega)⟩
  obtain ⟨bits, hset, hlen₂, hbits⟩ := w.setBit_spec (w.last - seq) (by omega)
  refine ⟨{ w with bits }, ?_, ?_, fun hn => absurd hf hn⟩
  · rw [if_neg fun hb => hseen (hbit.mp hb), hset, ok_bind, decide_eq_true hf, pure_eq_ok]
  rw [take, if_pos hf]
  refine ⟨h.size, by rw [hlen₂]; exact hlen, ?_, ?_, ?_⟩
  · rw [AntiReplay.highest_insert, max_eq_right (by omega)]
    exact hlast
  · rw [Finset.mem_insert, not_or]
    exact ⟨h0'.symm, h.zero⟩
  intro o ho
  simp only [hbits, hoff, Bool.or_eq_true, decide_eq_true_eq, h.bits o ho, Finset.mem_insert,
    exists_eq_or_imp]
  exact or_congr (by omega) Iff.rfl

/-- One call answers what the abstract window answers, and a refused call changes
nothing. -/
theorem Represents.accept {W : Nat} {w : ReplayWindow} {taken : Finset Nat}
    (h : Represents W w taken) (hW : 0 < W) (seq : UInt32) :
    ∃ w', w.accept seq = .ok (decide (Fresh W taken seq.toNat), w') ∧
      Represents W w' (take W taken seq.toNat) ∧ (¬ Fresh W taken seq.toNat → w' = w) := by
  have hlast := h.last
  by_cases h0 : seq = 0
  · subst h0
    have hf : ¬ Fresh W taken (0 : UInt32).toNat := fun hf => hf.1 rfl
    refine ⟨w, ?_, by rwa [take, if_neg hf], fun _ => rfl⟩
    rw [ReplayWindow.accept, if_pos rfl, decide_eq_false hf]
  rcases Nat.lt_trichotomy seq.toNat w.last.toNat with hlt | heq | hgt
  · exact h.accept_below h0 (UInt32.lt_iff_toNat_lt.mpr hlt)
  · have hseq : seq = w.last := UInt32.toNat_inj.mp heq
    have h0' : seq.toNat ≠ 0 := fun he => h0 (UInt32.toNat_inj.mp he)
    have hmem : highest taken ∈ taken := AntiReplay.highest_mem (by omega)
    have hf : ¬ Fresh W taken seq.toNat := by
      rintro ⟨-, hnot, -⟩
      rw [heq, hlast] at hnot
      exact hnot hmem
    refine ⟨w, ?_, by rwa [take, if_neg hf], fun _ => rfl⟩
    have hirr : ¬ seq > w.last := by rw [gt_iff_lt, UInt32.lt_iff_toNat_lt]; omega
    rw [ReplayWindow.accept, if_neg h0, if_neg hirr, if_pos hseq, decide_eq_false hf]
  · obtain ⟨w', hacc, hrep⟩ := h.accept_above hW h0 (UInt32.lt_iff_toNat_lt.mpr hgt)
    have hf : Fresh W taken seq.toNat := by
      refine ⟨by omega, fun hmem => ?_, .inl (by omega)⟩
      have := AntiReplay.le_highest hmem
      omega
    exact ⟨w', by rw [hacc, decide_eq_true hf], by rwa [take, if_pos hf], fun hn => absurd hf hn⟩

/-! ## Runs -/

/-- The size a window is installed with: the requested one clamped to
`[64, 2 ^ 20]` and rounded up to a multiple of 64. -/
def installedSize (size : UInt32) : Nat := 64 * ((min (max size.toNat 64) (2 ^ 20) + 63) / 64)

theorem installedSize_pos (size : UInt32) : 0 < installedSize size := by
  unfold installedSize
  omega

/-- The clamped size. -/
theorem toNat_clamp (s : UInt32) :
    (if (if s < 64 then 64 else s) > maxReplayWindow then maxReplayWindow
      else if s < 64 then 64 else s).toNat = min (max s.toNat 64) (2 ^ 20) := by
  have hmax : maxReplayWindow.toNat = 2 ^ 20 := by decide
  have h64 : (64 : UInt32).toNat = 64 := rfl
  by_cases h : s.toNat < 64
  · have h' : s < 64 := UInt32.lt_iff_toNat_lt.mpr h
    rw [if_pos h', if_neg (by decide), h64]
    omega
  · have h' : ¬ s < 64 := fun hlt => h (UInt32.lt_iff_toNat_lt.mp hlt)
    rw [if_neg h']
    by_cases hb : 2 ^ 20 < s.toNat
    · rw [if_pos (UInt32.lt_iff_toNat_lt.mpr (hmax ▸ hb)), hmax]
      omega
    · rw [if_neg fun hgt => hb (hmax ▸ UInt32.lt_iff_toNat_lt.mp hgt)]
      omega

theorem represents_newReplayWindow (size : UInt32) :
    Represents (installedSize size) (newReplayWindow size) ∅ := by
  have hclamp := toNat_clamp size
  simp only [newReplayWindow, installedSize]
  generalize (if (if size < 64 then 64 else size) > maxReplayWindow then maxReplayWindow
    else if size < 64 then 64 else size) = s at hclamp
  have hwords : ((s.toUInt64 + 63) / 64).toNat = (s.toNat + 63) / 64 := by
    rw [UInt64.toNat_div, UInt64.toNat_add, UInt32.toNat_toUInt64]
    simp
    omega
  have hsize : ((s.toUInt64 + 63) / 64 * 64).toUInt32.toNat = 64 * ((s.toNat + 63) / 64) := by
    rw [UInt64.toNat_toUInt32, UInt64.toNat_mul, hwords]
    simp
    omega
  refine ⟨by rw [hsize, hclamp], by simp only [List.length_replicate, hwords, hclamp], rfl,
    Finset.notMem_empty _, fun o _ => ?_⟩
  simp [bit_replicate_zero]

/-- The numbers of a sequence of calls that were accepted. -/
def accepted (seqs : List UInt32) (oks : List Bool) : Finset Nat :=
  (((seqs.zip oks).filter fun c => c.2).map fun c => c.1.toNat).toFinset

theorem accepted_cons (seq : UInt32) (ok : Bool) (seqs : List UInt32) (oks : List Bool) :
    accepted (seq :: seqs) (ok :: oks) =
      if ok then insert seq.toNat (accepted seqs oks) else accepted seqs oks := by
  cases ok <;> simp [accepted]

theorem Represents.acceptAll {W : Nat} (hW : 0 < W) :
    ∀ (seqs : List UInt32) {w : ReplayWindow} {taken : Finset Nat}, Represents W w taken →
      ∃ oks w', w.acceptAll seqs = .ok (oks, w') ∧ Represents W w' (taken ∪ accepted seqs oks) ∧
        taken ∪ accepted seqs oks = (seqs.map UInt32.toNat).foldl (take W) taken
  | [], w, taken, h => ⟨[], w, rfl, by simpa [accepted] using h, by simp [accepted]⟩
  | seq :: seqs, w, taken, h => by
      obtain ⟨w₁, hacc, hrep, -⟩ := h.accept hW seq
      obtain ⟨oks, w', hall, hrep', hset⟩ := Represents.acceptAll hW seqs hrep
      have hunion : take W taken seq.toNat ∪ accepted seqs oks =
          taken ∪ accepted (seq :: seqs) (decide (Fresh W taken seq.toNat) :: oks) := by
        rw [accepted_cons, take]
        by_cases hf : Fresh W taken seq.toNat
        · rw [if_pos hf, if_pos (decide_eq_true hf), Finset.insert_union, Finset.union_insert]
        · rw [if_neg hf, if_neg (by simpa using hf)]
      refine ⟨_, w', ?_, hunion ▸ hrep', ?_⟩
      · simp only [ReplayWindow.acceptAll, hacc, ok_bind, hall, pure_eq_ok]
      · rw [← hunion, hset, List.map_cons, List.foldl_cons]

/-- From a fresh window of any requested size, after any sequence of calls, the
next call answers whether the number is not zero, has not been accepted before,
and is above the highest accepted or less than the installed size below it.  A
refused call leaves the window as it is. -/
theorem accept_newReplayWindow (size : UInt32) (seqs : List UInt32) (seq : UInt32) :
    (newReplayWindow size).size.toNat = installedSize size ∧
      ∃ oks w ok w', (newReplayWindow size).acceptAll seqs = .ok (oks, w) ∧
        w.accept seq = .ok (ok, w') ∧
        (ok = true ↔ Fresh (installedSize size) (accepted seqs oks) seq.toNat) ∧
        (ok = false → w' = w) := by
  have hnew := represents_newReplayWindow size
  have hpos := installedSize_pos size
  obtain ⟨oks, w, hall, hrep, -⟩ := Represents.acceptAll hpos seqs hnew
  rw [Finset.empty_union] at hrep
  obtain ⟨w', hacc, -, hkeep⟩ := hrep.accept hpos seq
  exact ⟨hnew.size, oks, w, _, w', hall, hacc, decide_eq_true_iff,
    fun hno => hkeep (of_decide_eq_false hno)⟩

end GoIpsec.Esp
