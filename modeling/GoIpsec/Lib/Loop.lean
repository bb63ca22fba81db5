import GoIpsec.Lib.Go

/-!
# Sequences of items

The loops a binary format is written and read with.  `writeAll` writes items one
after the other.  `many` reads items until the input is used up, threading a
state from item to item; `readN` reads a declared number of them and leaves the
rest.

`many` is bounded by the length of its input.  A reader that takes at least one
octet per item (`Consumes`) never meets that bound, so for it the loop is the
one of the source: `many_step` is its unfolding, with no bound in sight.
-/

namespace Golang

section Many

variable {σ α : Type}

/-- `many` with an explicit bound on the number of items.  Meeting the bound is a
loop that does not end. -/
def manyFuel (item : σ → Bytes → Go (List α × σ × Bytes)) : Nat → σ → Bytes → Go (List α)
  | _, _, [] => .ok []
  | 0, _, _ :: _ => .error .diverge
  | n + 1, st, x :: b => do
      let (as, st', rest) ← item st (x :: b)
      let more ← manyFuel item n st' rest
      return as ++ more

/-- Read items from `b` until nothing is left.  An item may contribute no value. -/
def many (item : σ → Bytes → Go (List α × σ × Bytes)) (st : σ) (b : Bytes) : Go (List α) :=
  manyFuel item b.length st b

/-- The reader takes at least one octet whenever it succeeds. -/
def Consumes (item : σ → Bytes → Go (List α × σ × Bytes)) : Prop :=
  ∀ st b as st' rest, item st b = .ok (as, st', rest) → rest.length < b.length

variable {item : σ → Bytes → Go (List α × σ × Bytes)}

/-- Any bound of at least the length of the input gives the same result. -/
theorem manyFuel_eq (hc : Consumes item) :
    ∀ (n m : Nat) (st : σ) (b : Bytes), b.length ≤ n → b.length ≤ m →
      manyFuel item n st b = manyFuel item m st b
  | _, _, _, [], _, _ => by simp only [manyFuel]
  | 0, _, _, _ :: _, hn, _ => by simp at hn
  | _ + 1, 0, _, _ :: _, _, hm => by simp at hm
  | n + 1, m + 1, st, x :: b, hn, hm => by
      simp only [manyFuel]
      cases hi : item st (x :: b) with
      | error e => rfl
      | ok r =>
          obtain ⟨as, st', rest⟩ := r
          have hlt := hc _ _ _ _ _ hi
          simp only [List.length_cons] at hn hm hlt
          simp only [ok_bind]
          rw [manyFuel_eq hc n m st' rest (by omega) (by omega)]

@[simp] theorem many_nil (st : σ) : many item st [] = .ok [] := by
  simp only [many, manyFuel]

/-- The loop of the source, unfolded once. -/
theorem many_step (hc : Consumes item) {st : σ} {b : Bytes} (hb : b ≠ []) :
    many item st b = item st b >>= fun r =>
      many item r.2.1 r.2.2 >>= fun more => .ok (r.1 ++ more) := by
  cases b with
  | nil => exact absurd rfl hb
  | cons x b =>
      simp only [many, List.length_cons, manyFuel]
      cases hi : item st (x :: b) with
      | error e => rfl
      | ok r =>
          obtain ⟨as, st', rest⟩ := r
          have hlt := hc _ _ _ _ _ hi
          simp only [List.length_cons] at hlt
          simp only [ok_bind, pure_eq_ok]
          rw [manyFuel_eq hc b.length rest.length st' rest (by omega) (Nat.le_refl _)]

/-- One item read off the front of the input. -/
theorem many_append (hc : Consumes item) {st st' : σ} {e rest : Bytes} {as : List α}
    (hi : item st (e ++ rest) = .ok (as, st', rest)) :
    many item st (e ++ rest) = many item st' rest >>= fun more => .ok (as ++ more) := by
  have hne : e ++ rest ≠ [] := by
    intro h
    have hlt := hc _ _ _ _ _ hi
    rw [h] at hlt
    simp at hlt
  rw [many_step hc hne, hi, ok_bind]

/-- A loop of safe items ends, and safely. -/
theorem Safe.many (hc : Consumes item) (hi : ∀ st b, Safe (item st b)) (st : σ) (b : Bytes) :
    Safe (many item st b) := by
  induction hn : b.length using Nat.strong_induction_on generalizing st b with
  | _ n ih =>
      by_cases hb : b = []
      · rw [hb, many_nil]
        exact Safe.ok []
      rw [many_step hc hb]
      refine (hi st b).bind fun r hr => ?_
      have hlt : r.2.2.length < n := hn ▸ hc _ _ _ _ _ hr
      exact (ih _ hlt _ _ rfl).bind fun more _ => Safe.ok _

/-- What holds of every item holds of all that a loop reads. -/
theorem many_forall (hc : Consumes item) {P : α → Prop}
    (hitem : ∀ st b as st' rest, item st b = .ok (as, st', rest) → ∀ a ∈ as, P a) {st : σ} {b : Bytes}
    {as : List α} (h : many item st b = .ok as) : ∀ a ∈ as, P a := by
  induction hn : b.length using Nat.strong_induction_on generalizing st b as with
  | _ n ih =>
      by_cases hb : b = []
      · rw [hb, many_nil] at h
        cases h
        exact List.forall_mem_nil _
      rw [many_step hc hb] at h
      simp only [bind_eq_ok, Except.ok.injEq] at h
      obtain ⟨⟨front, st', rest⟩, hfront, more, hmore, rfl⟩ := h
      have hlt : rest.length < n := hn ▸ hc _ _ _ _ _ hfront
      exact List.forall_mem_append.mpr ⟨hitem _ _ _ _ _ hfront, ih _ hlt hmore rfl⟩
end Many

section Readers

variable {α : Type}

/-- A reader of one kind of item, in the form `many` runs. -/
def plain (item : Bytes → Go (α × Bytes)) (_ : Unit) (b : Bytes) : Go (List α × Unit × Bytes) := do
  let (a, rest) ← item b
  return ([a], (), rest)

/-- Read items of one kind until nothing is left. -/
def readAll (item : Bytes → Go (α × Bytes)) (b : Bytes) : Go (List α) :=
  many (plain item) () b

/-- Read `n` items of one kind and return what is left. -/
def readN (item : Bytes → Go (α × Bytes)) : Nat → Bytes → Go (List α × Bytes)
  | 0, b => .ok ([], b)
  | n + 1, b => do
      let (a, rest) ← item b
      let (as, rest) ← readN item n rest
      return (a :: as, rest)

/-- `e` is an encoding of `a` for `item`: read in front of anything, it gives `a`
back and leaves the rest. -/
def Reads (item : Bytes → Go (α × Bytes)) (e : Bytes) (a : α) : Prop :=
  ∀ rest, item (e ++ rest) = .ok (a, rest)

/-- `write` gives an encoding of `a` of `n` octets for `item`. -/
def Encodes (write : Go Bytes) (n : Nat) (item : Bytes → Go (α × Bytes)) (a : α) : Prop :=
  ∃ e, write = .ok e ∧ e.length = n ∧ Reads item e a

/-- Write items one after the other.  An item is told whether more of them
follow. -/
def writeAll (write : α → Bool → Go Bytes) : List α → Go Bytes
  | [] => .ok []
  | a :: as => do
      let e ← write a !as.isEmpty
      let rest ← writeAll write as
      return e ++ rest

theorem Safe.writeAll {write : α → Bool → Go Bytes} (h : ∀ a more, Safe (write a more)) :
    ∀ as, Safe (writeAll write as)
  | [] => Safe.ok []
  | a :: as => (h a _).bind fun _ _ => (Safe.writeAll h as).bind fun _ _ => Safe.ok _

variable {item : Bytes → Go (α × Bytes)}

/-- What `writeAll` writes is a concatenation of encodings, and its length is the
sum of theirs. -/
theorem writeAll_encodes {write : α → Bool → Go Bytes} {size : α → Nat} :
    ∀ {as : List α}, (∀ a ∈ as, ∀ more, Encodes (write a more) (size a) item a) →
      ∃ es, writeAll write as = .ok es.flatten ∧ es.flatten.length = (as.map size).sum ∧
        List.Forall₂ (Reads item) es as
  | [], _ => ⟨[], rfl, rfl, .nil⟩
  | a :: as, h => by
      obtain ⟨e, he, hn, hr⟩ := h a List.mem_cons_self (!as.isEmpty)
      obtain ⟨es, hes, hns, hrs⟩ := writeAll_encodes fun b hb => h b (List.mem_cons_of_mem _ hb)
      refine ⟨e :: es, ?_, ?_, .cons hr hrs⟩
      · rw [writeAll, he, ok_bind, hes, ok_bind, List.flatten_cons, pure_eq_ok]
      · rw [List.flatten_cons, List.length_append, hn, hns, List.map_cons, List.sum_cons]

theorem consumes_plain (hc : ∀ b a rest, item b = .ok (a, rest) → rest.length < b.length) :
    Consumes (plain item) := by
  intro st b as st' rest hi
  simp only [plain, bind_eq_ok, pure_eq_ok, Except.ok.injEq, Prod.mk.injEq] at hi
  obtain ⟨⟨a, r⟩, hr, -, -, rfl⟩ := hi
  exact hc _ _ _ hr

/-- A concatenation of encodings is read back, item by item. -/
theorem readAll_flatten (hc : ∀ b a rest, item b = .ok (a, rest) → rest.length < b.length)
    {es : List Bytes} {as : List α} (h : List.Forall₂ (Reads item) es as) :
    readAll item es.flatten = .ok as := by
  induction h with
  | nil => simp [readAll]
  | @cons e a es as hr _ ih =>
      have hi : plain item () (e ++ es.flatten) = .ok ([a], (), es.flatten) := by
        rw [plain, hr]
        rfl
      rw [readAll] at ih
      rw [List.flatten_cons, readAll, many_append (consumes_plain hc) hi, ih]
      rfl

/-- `item` accepts exactly the octets `enc r`, and reads them as `val r`. -/
def Accepts {ρ : Type} (item : Bytes → Go (α × Bytes)) (enc : ρ → Bytes) (val : ρ → α) : Prop :=
  ∀ b a rest, item b = .ok (a, rest) ↔ ∃ r, b = enc r ++ rest ∧ val r = a

/-- The loop then accepts exactly the concatenations. -/
theorem Accepts.readAll {ρ : Type} {enc : ρ → Bytes} {val : ρ → α} (h : Accepts item enc val)
    (hc : ∀ b a rest, item b = .ok (a, rest) → rest.length < b.length) (b : Bytes) (as : List α) :
    readAll item b = .ok as ↔ ∃ rs : List ρ, b = (rs.map enc).flatten ∧ rs.map val = as := by
  constructor
  · intro hb
    induction hn : b.length using Nat.strong_induction_on generalizing b as with
    | _ n ih =>
        by_cases hnil : b = []
        · subst hnil
          cases (many_nil ()).symm.trans hb
          exact ⟨[], rfl, rfl⟩
        rw [Golang.readAll, many_step (consumes_plain hc) hnil] at hb
        simp only [plain, bind_eq_ok, pure_eq_ok, Except.ok.injEq] at hb
        obtain ⟨_, ⟨⟨a, rest⟩, hitem, rfl⟩, more, hmore, rfl⟩ := hb
        obtain ⟨r, rfl, rfl⟩ := (h _ _ _).mp hitem
        obtain ⟨rs, rfl, rfl⟩ := ih _ (hn ▸ hc _ _ _ hitem) _ _ hmore rfl
        exact ⟨r :: rs, rfl, rfl⟩
  · rintro ⟨rs, rfl, rfl⟩
    apply readAll_flatten hc
    induction rs with
    | nil => exact .nil
    | cons r rs ih => exact .cons (fun rest => (h _ _ _).mpr ⟨r, rfl, rfl⟩) ih

theorem readN_flatten {es : List Bytes} {as : List α} (h : List.Forall₂ (Reads item) es as)
    (rest : Bytes) : readN item as.length (es.flatten ++ rest) = .ok (as, rest) := by
  induction h with
  | nil => rfl
  | @cons e a es as hr _ ih =>
      have hi : item (e ++ (es.flatten ++ rest)) = .ok (a, es.flatten ++ rest) := hr _
      simp only [List.flatten_cons, List.append_assoc, List.length_cons, readN, hi, ok_bind, ih,
        pure_eq_ok]

theorem readN_forall {P : α → Prop}
    (hitem : ∀ b a rest, item b = .ok (a, rest) → P a) {n : Nat} {b rest : Bytes} {as : List α}
    (h : readN item n b = .ok (as, rest)) : as.length = n ∧ ∀ a ∈ as, P a := by
  induction n generalizing b as with
  | zero =>
      cases h
      exact ⟨rfl, List.forall_mem_nil _⟩
  | succ n ih =>
      simp only [readN, bind_eq_ok, pure_eq_ok, Except.ok.injEq, Prod.mk.injEq] at h
      obtain ⟨⟨a, b'⟩, hfirst, ⟨more, rest'⟩, hmore, rfl, rfl⟩ := h
      obtain ⟨hlen, hall⟩ := ih hmore
      exact ⟨by rw [List.length_cons, hlen], List.forall_mem_cons.mpr ⟨hitem _ _ _ hfirst, hall⟩⟩

theorem Safe.readAll (hc : ∀ b a rest, item b = .ok (a, rest) → rest.length < b.length)
    (hi : ∀ b, Safe (item b)) (b : Bytes) : Safe (readAll item b) :=
  Safe.many (consumes_plain hc) (fun _ b => (hi b).bind fun _ _ => Safe.ok _) () b

/-- `size` bounds from below what is left for the items still to come. -/
theorem Safe.readN {size : Nat} (hi : ∀ b : Bytes, size ≤ b.length → Safe (item b))
    (hrest : ∀ b a rest, item b = .ok (a, rest) → b.length ≤ size + rest.length ∨ size = 0) :
    ∀ (n : Nat) (b : Bytes), size * n ≤ b.length → Safe (readN item n b)
  | 0, b, _ => Safe.ok _
  | n + 1, b, hb => by
      rw [Nat.mul_succ] at hb
      refine (hi b (by omega)).bind fun r hr => ?_
      have hleft : size * n ≤ r.2.length := by
        rcases hrest _ _ _ hr with h | h
        · omega
        · rw [h, Nat.zero_mul]
          exact Nat.zero_le _
      exact (Safe.readN hi hrest n r.2 hleft).bind fun _ _ => Safe.ok _

end Readers

end Golang
