import Mathlib.Data.List.Basic
import Mathlib.Tactic.Ring

/-!
# Byte strings and partial operations

The part of the Go language a byte-level model needs.  A byte slice is a list
of octets.  An index or a slice expression out of range panics, so both return
in `Go`, the type of calls that end in a value or in a `Fault`.  A model built
from them has no hidden bounds: a reader that never slices out of range is one
whose result is never `Fault.panic`.

Integers on the wire are big-endian.  `putBE` and `getBE` are the encoding at
any width over the natural numbers, and the fixed widths are instances.
-/

namespace Golang

/-- A byte slice. -/
abbrev Bytes := List UInt8

/-- The ways a call ends without a value: it returns an error, it panics, or a
loop of it never ends. -/
inductive Fault where
  | err (text : String)
  | panic
  | diverge
deriving Repr, DecidableEq

/-- The result of a call that may fail. -/
abbrev Go (α : Type) := Except Fault α

/-- Return an error with the given text. -/
def fail {α : Type} (text : String) : Go α := .error (.err text)

/-- The value of a call, or `d` if it has none. -/
def valueD {α : Type} (x : Go α) (d : α) : α :=
  match x with
  | .ok a => a
  | .error _ => d

/-- Put a text in front of that of an error.  A panic passes through. -/
def wrapErr {α : Type} (pre : String) : Go α → Go α
  | .error (.err text) => .error (.err s!"{pre}{text}")
  | r => r

@[simp] theorem wrapErr_ok {α : Type} (pre : String) (a : α) :
    wrapErr pre (.ok a : Go α) = .ok a := rfl

theorem wrapErr_eq_ok {α : Type} {pre : String} {x : Go α} {a : α} :
    wrapErr pre x = .ok a ↔ x = .ok a := by
  unfold wrapErr
  split
  · simp
  · rfl

@[simp] theorem ok_bind {α β : Type} (a : α) (f : α → Go β) :
    ((Except.ok a : Go α) >>= f) = f a := rfl

@[simp] theorem error_bind {α β : Type} (e : Fault) (f : α → Go β) :
    ((Except.error e : Go α) >>= f) = .error e := rfl

@[simp] theorem pure_eq_ok {α : Type} (a : α) : (pure a : Go α) = .ok a := rfl

@[simp] theorem fail_bind {α β : Type} (text : String) (f : α → Go β) :
    ((fail text : Go α) >>= f) = fail text := rfl

/-- Peel one call off a sequence that succeeded. -/
theorem bind_eq_ok {α β : Type} {x : Go α} {f : α → Go β} {b : β} :
    (x >>= f) = .ok b ↔ ∃ a, x = .ok a ∧ f a = .ok b := by
  cases x with
  | error e => simp
  | ok a => simp

/-! ## Calls that do not crash -/

/-- The call ends in a value or an error. -/
def Safe {α : Type} (x : Go α) : Prop := ∀ e, x = .error e → ∃ text, e = .err text

namespace Safe

variable {α β : Type}

theorem ok (a : α) : Safe (.ok a : Go α) := fun _ he => by cases he

theorem fail (text : String) : Safe (Golang.fail text : Go α) := fun _ he => by
  cases he
  exact ⟨text, rfl⟩

/-- The fault of a safe call, passed on. -/
theorem of_error {x : Go α} {e : Fault} (hx : Safe x) (he : x = .error e) :
    Safe (.error e : Go β) := by
  obtain ⟨text, rfl⟩ := hx e he
  exact fail text

theorem bind {x : Go α} {f : α → Go β} (hx : Safe x) (hf : ∀ a, x = .ok a → Safe (f a)) :
    Safe (x >>= f) := by
  cases x with
  | ok a => exact hf a rfl
  | error e =>
      obtain ⟨text, rfl⟩ := hx e rfl
      exact fail text

theorem map {x : Go α} (f : α → β) (hx : Safe x) : Safe (f <$> x) := by
  cases x with
  | ok a => exact ok (f a)
  | error e =>
      obtain ⟨text, rfl⟩ := hx e rfl
      exact fail text

theorem wrapErr {x : Go α} (pre : String) (hx : Safe x) : Safe (Golang.wrapErr pre x) := by
  cases x with
  | ok a => exact ok a
  | error e =>
      obtain ⟨text, rfl⟩ := hx e rfl
      exact fail _

end Safe

/-! ## Slices -/

/-- `b[i:j]`. -/
def slice (b : Bytes) (i j : Nat) : Go Bytes :=
  if i ≤ j ∧ j ≤ b.length then .ok ((b.take j).drop i) else .error .panic

/-- `b[i:]`. -/
def sliceFrom (b : Bytes) (i : Nat) : Go Bytes :=
  if i ≤ b.length then .ok (b.drop i) else .error .panic

/-- `b[i]`. -/
def index {α : Type} (b : List α) (i : Nat) : Go α :=
  match b[i]? with
  | some x => .ok x
  | none => .error .panic

/-- `b[i] = x`. -/
def setAt {α : Type} (b : List α) (i : Nat) (x : α) : Go (List α) :=
  if i < b.length then .ok (b.set i x) else .error .panic

theorem slice_ok {b : Bytes} {i j : Nat} (hij : i ≤ j) (hj : j ≤ b.length) :
    slice b i j = .ok ((b.take j).drop i) := by
  rw [slice, if_pos ⟨hij, hj⟩]

theorem length_slice {b r : Bytes} {i j : Nat} (h : slice b i j = .ok r) : r.length = j - i := by
  unfold slice at h
  split at h
  · cases h
    rw [List.length_drop, List.length_take]
    omega
  · cases h

theorem sliceFrom_ok {b : Bytes} {i : Nat} (h : i ≤ b.length) :
    sliceFrom b i = .ok (b.drop i) := by
  rw [sliceFrom, if_pos h]

theorem index_ok {α : Type} {b : List α} {i : Nat} (h : i < b.length) : index b i = .ok b[i] := by
  simp [index, h]

theorem setAt_ok {α : Type} {b : List α} {i : Nat} (h : i < b.length) (x : α) :
    setAt b i x = .ok (b.set i x) := by
  rw [setAt, if_pos h]

@[simp] theorem index_cons_zero {α : Type} (x : α) (b : List α) : index (x :: b) 0 = .ok x := rfl

@[simp] theorem index_cons_succ {α : Type} (x : α) (b : List α) (i : Nat) :
    index (x :: b) (i + 1) = index b i := rfl

/-- The whole of a slice. -/
theorem slice_all {b : Bytes} {n : Nat} (h : n = b.length) : slice b 0 n = .ok b := by
  subst h
  simp [slice]

/-- A slice of an append that lies in its first part. -/
theorem slice_append_of_le {a b : Bytes} {i j : Nat} (hj : j ≤ a.length) :
    slice (a ++ b) i j = slice a i j := by
  have hb : j ≤ (a ++ b).length := by rw [List.length_append]; omega
  by_cases hij : i ≤ j
  · rw [slice_ok hij hb, slice_ok hij hj, List.take_append_of_le_length hj]
  · simp [slice, hij]

/-- A slice of an append that lies in its second part. -/
theorem slice_append_of_ge {a b : Bytes} {i j : Nat} (hi : a.length ≤ i) (hij : i ≤ j) :
    slice (a ++ b) i j = slice b (i - a.length) (j - a.length) := by
  by_cases hj : j ≤ (a ++ b).length
  · have hj' : j - a.length ≤ b.length := by rw [List.length_append] at hj; omega
    rw [slice_ok hij hj, slice_ok (by omega) hj', List.take_append,
      List.take_of_length_le (by omega), List.drop_append,
      List.drop_of_length_le hi, List.nil_append]
  · have hj' : ¬ j - a.length ≤ b.length := by rw [List.length_append] at hj; omega
    simp only [slice, hj, hj', and_false, if_false]

/-- The middle of three parts. -/
theorem slice_mid {a b c : Bytes} {i j : Nat} (hi : i = a.length) (hj : j = a.length + b.length) :
    slice (a ++ (b ++ c)) i j = .ok b := by
  rw [slice_append_of_ge (by omega) (by omega), slice_append_of_le (by omega)]
  exact (show i - a.length = 0 by omega) ▸ slice_all (by omega)

theorem sliceFrom_append {a b : Bytes} {i : Nat} (hi : i = a.length) :
    sliceFrom (a ++ b) i = .ok b := by
  subst hi
  rw [sliceFrom_ok (by simp), List.drop_left]

theorem sliceFrom_append_of_ge {a b : Bytes} {i : Nat} (hi : a.length ≤ i) :
    sliceFrom (a ++ b) i = sliceFrom b (i - a.length) := by
  by_cases h : i ≤ (a ++ b).length
  · have h' : i - a.length ≤ b.length := by rw [List.length_append] at h; omega
    rw [sliceFrom_ok h, sliceFrom_ok h', List.drop_append, List.drop_of_length_le hi,
      List.nil_append]
  · have h' : ¬ i - a.length ≤ b.length := by rw [List.length_append] at h; omega
    simp only [sliceFrom, h, h', if_false]

theorem sliceFrom_eq_ok {b r : Bytes} {i : Nat} (h : sliceFrom b i = .ok r) :
    i ≤ b.length ∧ r = b.drop i := by
  by_cases hi : i ≤ b.length
  · rw [sliceFrom_ok hi] at h
    exact ⟨hi, (Except.ok.inj h).symm⟩
  · simp [sliceFrom, hi] at h

theorem index_append_of_ge {a b : Bytes} {i : Nat} (hi : a.length ≤ i) :
    index (a ++ b) i = index b (i - a.length) := by
  simp [index, List.getElem?_append_right hi]

theorem index_append_of_lt {a b : Bytes} {i : Nat} (hi : i < a.length) :
    index (a ++ b) i = index a i := by
  simp [index, List.getElem?_append_left hi]

/-! ## Big-endian integers -/

/-- The `n` low octets of `v`, most significant first. -/
def putBE : Nat → Nat → Bytes
  | 0, _ => []
  | n + 1, v => UInt8.ofNat (v / 256 ^ n) :: putBE n v

/-- The value of a big-endian octet string. -/
def getBE (b : Bytes) : Nat := b.foldl (fun acc x => acc * 256 + x.toNat) 0

@[simp] theorem length_putBE (n v : Nat) : (putBE n v).length = n := by
  induction n with
  | zero => rfl
  | succ n ih => simp [putBE, ih]

/-- Reading on from an accumulator. -/
theorem foldl_getBE (b : Bytes) (acc : Nat) :
    b.foldl (fun acc x => acc * 256 + x.toNat) acc = acc * 256 ^ b.length + getBE b := by
  induction b generalizing acc with
  | nil => simp [getBE]
  | cons x b ih =>
      have hx : getBE (x :: b) = (0 * 256 + x.toNat) * 256 ^ b.length + getBE b := ih _
      rw [List.foldl_cons, ih, hx, List.length_cons]
      ring

theorem getBE_cons (x : UInt8) (b : Bytes) :
    getBE (x :: b) = x.toNat * 256 ^ b.length + getBE b := by
  rw [getBE, List.foldl_cons, foldl_getBE]
  ring

theorem getBE_lt (b : Bytes) : getBE b < 256 ^ b.length := by
  induction b with
  | nil => simp [getBE]
  | cons x b ih =>
      have hx : x.toNat ≤ 255 := by have := x.toNat_lt; omega
      calc getBE (x :: b) = x.toNat * 256 ^ b.length + getBE b := getBE_cons x b
        _ < 255 * 256 ^ b.length + 256 ^ b.length :=
            Nat.add_lt_add_of_le_of_lt (Nat.mul_le_mul_right _ hx) ih
        _ = 256 ^ (x :: b).length := by rw [List.length_cons]; ring

/-- Reading back what was written, up to the width. -/
theorem getBE_putBE (n v : Nat) : getBE (putBE n v) = v % 256 ^ n := by
  induction n with
  | zero => simp [putBE, getBE, Nat.mod_one]
  | succ n ih =>
      have hx : (UInt8.ofNat (v / 256 ^ n)).toNat = v / 256 ^ n % 256 := UInt8.toNat_ofNat'
      rw [putBE, getBE_cons, ih, length_putBE, hx, Nat.pow_succ, Nat.mod_mul, Nat.mul_comm,
        Nat.add_comm]

theorem getBE_putBE_of_lt {n v : Nat} (h : v < 256 ^ n) : getBE (putBE n v) = v := by
  rw [getBE_putBE, Nat.mod_eq_of_lt h]

theorem putBE_add {k v : Nat} (h : v < 256 ^ k) (m : Nat) :
    putBE (m + k) v = List.replicate m 0 ++ putBE k v := by
  induction m with
  | zero => rw [Nat.zero_add, List.replicate_zero, List.nil_append]
  | succ m ih =>
      have hzero : v / 256 ^ (m + k) = 0 :=
        Nat.div_eq_of_lt (Nat.lt_of_lt_of_le h (Nat.pow_le_pow_right (by decide) (by omega)))
      rw [Nat.add_right_comm, putBE, hzero, ih, List.replicate_succ, List.cons_append]
      rfl

/-- `big.Int.Bytes`: the octets of a number, without leading zeros. -/
def natBytes (v : Nat) : Bytes := if v = 0 then [] else putBE (v.log2 / 8 + 1) v

theorem natBytes_eq_putBE (v : Nat) :
    v < 256 ^ (natBytes v).length ∧ natBytes v = putBE (natBytes v).length v := by
  unfold natBytes
  split
  · rename_i hv
    exact ⟨by simp [hv], rfl⟩
  · rename_i hv
    rw [length_putBE]
    refine ⟨?_, rfl⟩
    calc v < 2 ^ (v.log2 + 1) := Nat.lt_log2_self
      _ ≤ 2 ^ (8 * (v.log2 / 8 + 1)) := Nat.pow_le_pow_right (by decide) (by omega)
      _ = 256 ^ (v.log2 / 8 + 1) := Nat.pow_mul 2 8 _

theorem length_natBytes_le {n v : Nat} (h : v < 256 ^ n) : (natBytes v).length ≤ n := by
  unfold natBytes
  split
  · exact Nat.zero_le _
  · rename_i hv
    have hlog : v.log2 < 8 * n := (Nat.log2_lt hv).mpr (by rwa [Nat.pow_mul])
    rw [length_putBE]
    omega

/-- `binary.BigEndian.PutUint16` into two fresh octets. -/
def putUint16 (v : UInt16) : Bytes := putBE 2 v.toNat

/-- `binary.BigEndian.PutUint32` into four fresh octets. -/
def putUint32 (v : UInt32) : Bytes := putBE 4 v.toNat

/-- `binary.BigEndian.PutUint64` into eight fresh octets. -/
def putUint64 (v : UInt64) : Bytes := putBE 8 v.toNat

/-- `binary.BigEndian.Uint16`, which panics on fewer than two octets. -/
def uint16 (b : Bytes) : Go UInt16 := do return UInt16.ofNat (getBE (← slice b 0 2))

/-- `binary.BigEndian.Uint32`, which panics on fewer than four octets. -/
def uint32 (b : Bytes) : Go UInt32 := do return UInt32.ofNat (getBE (← slice b 0 4))

/-- `binary.BigEndian.Uint64`, which panics on fewer than eight octets. -/
def uint64 (b : Bytes) : Go UInt64 := do return UInt64.ofNat (getBE (← slice b 0 8))

theorem uint32_ok {b : Bytes} (h : 4 ≤ b.length) : ∃ v, uint32 b = .ok v := by
  rw [uint32, slice_ok (Nat.zero_le 4) h]
  exact ⟨_, rfl⟩

theorem uint64_ok {b : Bytes} (h : 8 ≤ b.length) : ∃ v, uint64 b = .ok v := by
  rw [uint64, slice_ok (Nat.zero_le 8) h]
  exact ⟨_, rfl⟩

/-! Each reader, called within its bounds and followed by something safe. -/

namespace Safe

variable {α β : Type}

theorem slice_bind {b : Bytes} {i j : Nat} {f : Bytes → Go β} (hij : i ≤ j) (hj : j ≤ b.length)
    (hf : ∀ r : Bytes, r.length = j - i → Safe (f r)) : Safe (slice b i j >>= f) := by
  rw [slice_ok hij hj]
  refine hf _ ?_
  rw [List.length_drop, List.length_take]
  omega

theorem sliceFrom_bind {b : Bytes} {i : Nat} {f : Bytes → Go β} (hi : i ≤ b.length)
    (hf : ∀ r : Bytes, r.length = b.length - i → Safe (f r)) : Safe (sliceFrom b i >>= f) := by
  rw [sliceFrom_ok hi]
  exact hf _ (List.length_drop)

theorem index {b : List α} {i : Nat} (hi : i < b.length) : Safe (Golang.index b i) := by
  rw [index_ok hi]
  exact Safe.ok _

theorem index_bind {b : List α} {i : Nat} {f : α → Go β} (hi : i < b.length)
    (hf : ∀ x, Safe (f x)) : Safe (Golang.index b i >>= f) := by
  rw [index_ok hi]
  exact hf _

theorem uint16_bind {b : Bytes} {f : UInt16 → Go β} (h : 2 ≤ b.length) (hf : ∀ v, Safe (f v)) :
    Safe (uint16 b >>= f) := by
  rw [uint16, slice_ok (Nat.zero_le 2) h]
  exact hf _

theorem uint32_bind {b : Bytes} {f : UInt32 → Go β} (h : 4 ≤ b.length) (hf : ∀ v, Safe (f v)) :
    Safe (uint32 b >>= f) := by
  obtain ⟨v, hv⟩ := uint32_ok h
  rw [hv]
  exact hf v

theorem uint64_bind {b : Bytes} {f : UInt64 → Go β} (h : 8 ≤ b.length) (hf : ∀ v, Safe (f v)) :
    Safe (uint64 b >>= f) := by
  obtain ⟨v, hv⟩ := uint64_ok h
  rw [hv]
  exact hf v

end Safe

@[simp] theorem length_putUint16 (v : UInt16) : (putUint16 v).length = 2 := length_putBE 2 _
@[simp] theorem length_putUint32 (v : UInt32) : (putUint32 v).length = 4 := length_putBE 4 _
@[simp] theorem length_putUint64 (v : UInt64) : (putUint64 v).length = 8 := length_putBE 8 _

/-- Any two octets are a number's. -/
theorem exists_putUint16 (x y : UInt8) : ∃ v, [x, y] = putUint16 v := by
  have hx := UInt8.toNat_lt x
  have hy := UInt8.toNat_lt y
  refine ⟨UInt16.ofNat (x.toNat * 256 + y.toNat), ?_⟩
  have hv : (UInt16.ofNat (x.toNat * 256 + y.toNat)).toNat = x.toNat * 256 + y.toNat := by
    rw [UInt16.toNat_ofNat']
    omega
  have hhigh : UInt8.ofNat ((x.toNat * 256 + y.toNat) / 256 ^ 1) = x := by
    apply UInt8.toNat_inj.mp
    rw [UInt8.toNat_ofNat']
    omega
  have hlow : UInt8.ofNat ((x.toNat * 256 + y.toNat) / 256 ^ 0) = y := by
    apply UInt8.toNat_inj.mp
    rw [UInt8.toNat_ofNat']
    omega
  rw [putUint16, hv, putBE, putBE, putBE, hhigh, hlow]

@[simp] theorem uint16_putUint16 (v : UInt16) : uint16 (putUint16 v) = .ok v := by
  rw [uint16, slice_all (by simp), ok_bind, putUint16, getBE_putBE_of_lt v.toNat_lt]
  simp

theorem putUint16_injective {a b : UInt16} (h : putUint16 a = putUint16 b) : a = b :=
  Except.ok.inj ((uint16_putUint16 a).symm.trans (h ▸ uint16_putUint16 b))

@[simp] theorem uint32_putUint32 (v : UInt32) : uint32 (putUint32 v) = .ok v := by
  rw [uint32, slice_all (by simp), ok_bind, putUint32, getBE_putBE_of_lt v.toNat_lt]
  simp

@[simp] theorem uint64_putUint64 (v : UInt64) : uint64 (putUint64 v) = .ok v := by
  rw [uint64, slice_all (by simp), ok_bind, putUint64, getBE_putBE_of_lt v.toNat_lt]
  simp

end Golang
