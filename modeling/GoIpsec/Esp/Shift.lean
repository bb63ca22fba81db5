import GoIpsec.Esp.Replay
import GoIpsec.Lib.Memory

/-!
# The shift in place

`shiftUp` works on the array it is given.  Here it is written over an array that keeps a
record of its accesses, statement by statement as in the source, and shown to compute the
shift of the whole bitmap while it reads no word that it has overwritten.

The loop goes down, and the two words it reads are not above the one it writes, so all
that was written before lies above them.
-/

namespace GoIpsec.Esp

open Golang

/-- `for i := top; i > words; i--`. -/
def shiftWordsInPlace (words bits : Nat) : Nat → Proc (Memory UInt64) Unit
  | 0 => pure ()
  | i + 1 =>
      if i + 1 > words then do
        let hi ← Memory.load (i + 1 - words)
        let lo ← Memory.load (i + 1 - words - 1)
        Memory.store (i + 1) (hi <<< UInt64.ofNat bits ||| lo >>> UInt64.ofNat (64 - bits))
        shiftWordsInPlace words bits i
      else pure ()

/-- `for i := range n { b[i] = 0 }`. -/
def zeroWordsInPlace : Nat → Proc (Memory UInt64) Unit
  | 0 => pure ()
  | n + 1 => do
      zeroWordsInPlace n
      Memory.store n 0

/-- `copy(b[words:], b[:len(b)-words])`, which reads as if all was read before anything is
written. -/
def copyWordsInPlace (words : Nat) : Proc (Memory UInt64) Unit := fun m =>
  let n := m.cells.length - words
  (.ok (),
    { cells := m.cells.take words ++ m.cells.take n
      accesses := (List.range n).map (fun i => .store (words + i)) ++
        ((List.range n).map .load ++ m.accesses) })

def shiftUpInPlace (n : Nat) : Proc (Memory UInt64) Unit := do
  let len := (← Proc.get).cells.length
  let words := n / 64
  let bits := n % 64
  if n = 0 then return ()
  else if words ≥ len then zeroWordsInPlace len
  else if bits = 0 then do
    copyWordsInPlace words
    zeroWordsInPlace words
  else do
    shiftWordsInPlace words bits (len - 1)
    let low ← Memory.load 0
    Memory.store words (low <<< UInt64.ofNat bits)
    zeroWordsInPlace words

/-! ## What the loops read and write -/

/-- The loop computes what `shiftWords` computes, stores above `words` only, and reads
nothing that it, or what came before it, has written. -/
theorem shiftWordsInPlace_run (words bits : Nat) :
    ∀ (i : Nat) (m : Memory UInt64), i < m.cells.length → Unspoilt m.accesses →
      (∀ j, .store j ∈ m.accesses → i < j ∧ words < j) →
      ∃ m', shiftWordsInPlace words bits i m = (.ok (), m') ∧
        shiftWords words bits i m.cells = .ok m'.cells ∧ Unspoilt m'.accesses ∧
        ∀ j, .store j ∈ m'.accesses → words < j
  | 0, m, _, hclean, habove => ⟨m, rfl, rfl, hclean, fun j hj => (habove j hj).2⟩
  | i + 1, ⟨cells, log⟩, hi, hclean, habove => by
      dsimp only at hi hclean habove
      rw [shiftWordsInPlace, shiftWords]
      by_cases hw : i + 1 > words
      · rw [if_pos hw, if_pos hw]
        have hhi := index_ok (b := cells) (i := i + 1 - words) (by omega)
        have hlo := index_ok (b := cells) (i := i + 1 - words - 1) (by omega)
        rw [Memory.load_bind hhi, Memory.load_bind hlo, Memory.store_bind hi, hhi, ok_bind, hlo,
          ok_bind, setAt_ok hi, ok_bind]
        -- nothing at or below `i + 1` has been written
        have hfresh {k : Nat} (hk : k ≤ i + 1) : Access.store k ∉ log := fun hmem =>
          absurd (habove k hmem).1 (by omega)
        refine shiftWordsInPlace_run words bits i _ ?_ ⟨?_, hfresh (by omega), hclean⟩ fun j hj => ?_
        · rw [List.length_set]
          omega
        · simpa using hfresh (by omega)
        · rcases List.mem_cons.mp hj with heq | hj
          · cases heq
            omega
          · simp only [List.mem_cons, reduceCtorEq, false_or] at hj
            have := habove j hj
            omega
      · rw [if_neg hw, if_neg hw]
        exact ⟨⟨cells, log⟩, rfl, rfl, hclean, fun j hj => (habove j hj).2⟩

/-- Clearing words reads nothing. -/
theorem zeroWordsInPlace_run (m : Memory UInt64) (hclean : Unspoilt m.accesses) :
    ∀ n, n ≤ m.cells.length → ∃ m', zeroWordsInPlace n m = (.ok (), m') ∧
      zeroWords n m.cells = .ok m'.cells ∧ m'.cells.length = m.cells.length ∧ Unspoilt m'.accesses
  | 0, _ => ⟨m, rfl, rfl, rfl, hclean⟩
  | n + 1, hn => by
      obtain ⟨⟨cells, log⟩, hrun, hwords, hlen, hclean'⟩ :=
        zeroWordsInPlace_run m hclean n (by omega)
      have hn' : n < cells.length := Nat.lt_of_lt_of_eq hn hlen.symm
      refine ⟨⟨cells.set n 0, .store n :: log⟩, ?_, ?_, ?_, hclean'⟩
      · rw [zeroWordsInPlace, Proc.bind_of_ok hrun, Memory.store_run hn']
      · rw [zeroWords, hwords, ok_bind, setAt_ok hn']
      · exact List.length_set.trans hlen

theorem unspoilt_copy (words n : Nat) :
    Unspoilt ((List.range n).map (fun i => .store (words + i)) ++ ((List.range n).map .load ++ [])) := by
  have hloads : ∀ is : List Nat, Unspoilt (is.map .load ++ []) := by
    intro is
    induction is with
    | nil => trivial
    | cons i is ih => exact ⟨by simp, ih⟩
  have hstores : ∀ is : List Nat,
      Unspoilt (is.map (fun i => .store (words + i)) ++ ((List.range n).map .load ++ [])) := by
    intro is
    induction is with
    | nil => exact hloads _
    | cons i is ih => exact ih
  exact hstores _

/-! ## The whole shift -/

/-- The code computes the same bitmap in place, and reads no word it has overwritten. -/
theorem shiftUpInPlace_run (b : List UInt64) (n : Nat) :
    ∃ m', shiftUpInPlace n { cells := b } = (.ok (), m') ∧ shiftUp b n = .ok m'.cells ∧
      Unspoilt m'.accesses := by
  unfold shiftUpInPlace shiftUp
  rw [show ∀ f : Memory UInt64 → Proc (Memory UInt64) Unit,
    (Proc.get >>= f) { cells := b } = f { cells := b } { cells := b } from fun _ => rfl]
  dsimp only
  by_cases h0 : n = 0
  · rw [if_pos h0, if_pos h0]
    exact ⟨_, rfl, rfl, trivial⟩
  rw [if_neg h0, if_neg h0]
  by_cases hwords : n / 64 ≥ b.length
  · rw [if_pos hwords, if_pos hwords]
    obtain ⟨m', hrun, hcells, -, hclean⟩ :=
      zeroWordsInPlace_run { cells := b } trivial b.length (Nat.le_refl _)
    exact ⟨m', hrun, hcells, hclean⟩
  rw [if_neg hwords, if_neg hwords]
  by_cases hbits : n % 64 = 0
  · have hcopy : copyWordsInPlace (n / 64) { cells := b } = (.ok (), _) := rfl
    rw [if_pos hbits, if_pos hbits, Proc.bind_of_ok hcopy]
    obtain ⟨m', hrun, hcells, -, hclean⟩ := zeroWordsInPlace_run
      (copyWordsInPlace (n / 64) { cells := b }).2 (unspoilt_copy _ _) (n / 64)
      (by simp [copyWordsInPlace]; omega)
    exact ⟨m', hrun, hcells, hclean⟩
  · rw [if_neg hbits, if_neg hbits]
    obtain ⟨⟨cells, log⟩, hrun₁, hcells₁, hclean₁, habove⟩ := shiftWordsInPlace_run (n / 64) (n % 64)
      (b.length - 1) { cells := b } (by simp; omega) trivial nofun
    obtain ⟨b₁, hb₁, hlen₁, -⟩ := shiftWords_spec (n / 64) (n % 64) (b.length - 1) b (by omega)
    cases hcells₁.symm.trans hb₁
    dsimp only at hlen₁
    have hlow := index_ok (b := cells) (i := 0) (by omega)
    have hat : n / 64 < cells.length := by omega
    rw [Proc.bind_of_ok hrun₁, Memory.load_bind hlow, Memory.store_bind hat, hb₁, ok_bind, hlow,
      ok_bind, setAt_ok hat, ok_bind]
    obtain ⟨m', hrun, hcells, -, hclean⟩ := zeroWordsInPlace_run
      ⟨cells.set (n / 64) (cells[0] <<< UInt64.ofNat (n % 64)), .store (n / 64) :: .load 0 :: log⟩
      ⟨fun hmem => absurd (habove 0 hmem) (Nat.not_lt_zero _), hclean₁⟩ (n / 64)
      (by rw [List.length_set]; omega)
    exact ⟨m', hrun, hcells, hclean⟩

/-- A shift in place moves every bit up by `n` and clears what it vacates, for a bitmap of
any length and for every `n`.  No word is read after it was overwritten. -/
theorem shiftUp_in_place (b : List UInt64) (n : Nat) :
    ∃ m', shiftUpInPlace n { cells := b } = (.ok (), m') ∧ shiftUp b n = .ok m'.cells ∧
      m'.cells.length = b.length ∧
      (∀ k < 64 * b.length, bit m'.cells k = if n ≤ k then bit b (k - n) else false) ∧
      Unspoilt m'.accesses := by
  obtain ⟨m', hrun, hcells, hclean⟩ := shiftUpInPlace_run b n
  obtain ⟨b', hb', hlen, hbits⟩ := shiftUp_spec b n
  cases hcells.symm.trans hb'
  refine ⟨m', hrun, hcells, hlen, fun k hk => ?_, hclean⟩
  rw [hbits k hk]
  by_cases hnk : n ≤ k
  · rw [if_pos hnk, decide_eq_true hnk, Bool.true_and]
  · rw [if_neg hnk, decide_eq_false hnk, Bool.false_and]

end GoIpsec.Esp
