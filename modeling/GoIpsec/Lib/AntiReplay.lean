import Mathlib.Data.Finset.Lattice.Fold
import Mathlib.Order.Lattice.Nat

/-!
# Anti-replay windows

What an anti-replay window is for, over the natural numbers.  A window of width
`W` has *taken* a set of numbers.  A number is *fresh* for it when it is not
zero, has not been taken, and is not `W` or more below the highest taken.  Each
number offered is taken if it is fresh and refused otherwise.

A fresh number above the highest becomes the highest, and any number above the
highest is fresh, so the highest taken is the highest offered
(`highest_takeAll`).  Hence a number is taken exactly when it is offered at a
moment when it is not too old (`mem_takeAll`).
-/

namespace AntiReplay

/-- The highest number of a set, zero if it is empty. -/
def highest (taken : Finset ℕ) : ℕ := taken.sup id

/-- The numbers a window of width `W` accepts next. -/
def Fresh (W : ℕ) (taken : Finset ℕ) (n : ℕ) : Prop :=
  n ≠ 0 ∧ n ∉ taken ∧ (highest taken < n ∨ highest taken - n < W)

instance (W : ℕ) (taken : Finset ℕ) (n : ℕ) : Decidable (Fresh W taken n) :=
  inferInstanceAs (Decidable (_ ∧ _))

/-- Offer one number. -/
def take (W : ℕ) (taken : Finset ℕ) (n : ℕ) : Finset ℕ :=
  if Fresh W taken n then insert n taken else taken

/-- Offer numbers one after the other, to a window that has taken none. -/
def takeAll (W : ℕ) (ns : List ℕ) : Finset ℕ := ns.foldl (take W) ∅

@[simp] theorem takeAll_nil (W : ℕ) : takeAll W [] = ∅ := rfl

theorem takeAll_concat (W : ℕ) (ns : List ℕ) (n : ℕ) :
    takeAll W (ns ++ [n]) = take W (takeAll W ns) n := by
  rw [takeAll, List.foldl_append]
  rfl

theorem highest_insert (taken : Finset ℕ) (n : ℕ) :
    highest (insert n taken) = max n (highest taken) := by
  rw [highest, Finset.sup_insert]
  rfl

theorem le_highest {taken : Finset ℕ} {n : ℕ} (h : n ∈ taken) : n ≤ highest taken :=
  Finset.le_sup (f := id) h

/-- The highest of a set that is not zero is in the set. -/
theorem highest_mem {taken : Finset ℕ} (h : highest taken ≠ 0) : highest taken ∈ taken := by
  have hne : taken.Nonempty := by
    by_contra hempty
    rw [Finset.not_nonempty_iff_eq_empty] at hempty
    subst hempty
    exact h rfl
  obtain ⟨n, hn, he⟩ := Finset.exists_mem_eq_sup taken hne id
  rw [highest, he]
  exact hn

theorem highest_take {W : ℕ} (taken : Finset ℕ) (n : ℕ) :
    highest (take W taken n) = max (highest taken) n := by
  by_cases hf : Fresh W taken n
  · rw [take, if_pos hf, highest_insert, max_comm]
  · rw [take, if_neg hf, eq_comm, max_eq_left_iff]
    by_contra hlt
    have hnew : n ∉ taken := fun hmem => hlt (le_highest hmem)
    exact hf ⟨by omega, hnew, .inl (by omega)⟩

/-- The highest taken is the highest offered. -/
theorem highest_takeAll (W : ℕ) (ns : List ℕ) : highest (takeAll W ns) = ns.foldl max 0 := by
  induction ns using List.reverseRecOn with
  | nil => rfl
  | append_singleton ns n ih => rw [takeAll_concat, highest_take, ih, List.foldl_append]; rfl

/-- `n` is not `W` or more below the highest of `ns`. -/
def Recent (W : ℕ) (ns : List ℕ) (n : ℕ) : Prop :=
  ns.foldl max 0 < n ∨ ns.foldl max 0 - n < W

instance (W : ℕ) (ns : List ℕ) (n : ℕ) : Decidable (Recent W ns n) :=
  inferInstanceAs (Decidable (_ ∨ _))

/-- A number is taken when it is offered at a moment when it is not too old. -/
theorem mem_takeAll {W : ℕ} {ns : List ℕ} {n : ℕ} :
    n ∈ takeAll W ns ↔ n ≠ 0 ∧ ∃ before after, ns = before ++ n :: after ∧ Recent W before n := by
  induction ns using List.reverseRecOn with
  | nil => simp
  | append_singleton ns m ih =>
      rw [takeAll_concat, take]
      have hold : (∃ before after, ns = before ++ n :: after ∧ Recent W before n) →
          ∃ before after, ns ++ [m] = before ++ n :: after ∧ Recent W before n := by
        rintro ⟨before, after, rfl, hr⟩
        exact ⟨before, after ++ [m], by simp, hr⟩
      have hnew : (∃ before after, ns ++ [m] = before ++ n :: after ∧ Recent W before n) →
          (∃ before after, ns = before ++ n :: after ∧ Recent W before n) ∨
            n = m ∧ Recent W ns n := by
        rintro ⟨before, after, he, hr⟩
        rcases List.eq_nil_or_concat after with rfl | ⟨after, x, rfl⟩
        · obtain ⟨rfl, hx⟩ := List.append_inj' he rfl
          exact .inr ⟨by simpa using hx.symm, hr⟩
        · rw [List.concat_eq_append, ← List.cons_append, ← List.append_assoc] at he
          obtain ⟨rfl, -⟩ := List.append_inj' he rfl
          exact .inl ⟨before, after, rfl, hr⟩
      by_cases hf : Fresh W (takeAll W ns) m
      · rw [if_pos hf, Finset.mem_insert, ih]
        constructor
        · rintro (rfl | ⟨h0, h⟩)
          · refine ⟨hf.1, ns, [], rfl, ?_⟩
            have := hf.2.2
            rwa [highest_takeAll] at this
          · exact ⟨h0, hold h⟩
        · rintro ⟨h0, h⟩
          rcases hnew h with h | ⟨rfl, -⟩
          · exact .inr ⟨h0, h⟩
          · exact .inl rfl
      · rw [if_neg hf, ih]
        refine ⟨fun ⟨h0, h⟩ => ⟨h0, hold h⟩, fun ⟨h0, h⟩ => ⟨h0, ?_⟩⟩
        rcases hnew h with h | ⟨rfl, hr⟩
        · exact h
        · -- offered now and not too old, it is only refused because it was taken before
          have hmem : n ∈ takeAll W ns := by
            by_contra hn
            refine hf ⟨h0, hn, ?_⟩
            rwa [highest_takeAll]
          exact (ih.mp hmem).2

/-- Fresh after `ns` is: not too old, and not offered before at a moment when it
was not too old. -/
theorem fresh_takeAll {W : ℕ} {ns : List ℕ} {n : ℕ} (h0 : n ≠ 0) :
    Fresh W (takeAll W ns) n ↔
      Recent W ns n ∧ ¬ ∃ before after, ns = before ++ n :: after ∧ Recent W before n := by
  rw [Fresh, mem_takeAll, highest_takeAll, ← Recent]
  constructor
  · exact fun ⟨_, hnot, hr⟩ => ⟨hr, fun h => hnot ⟨h0, h⟩⟩
  · exact fun ⟨hr, hnot⟩ => ⟨h0, fun h => hnot h.2, hr⟩

end AntiReplay
