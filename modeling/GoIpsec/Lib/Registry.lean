import Mathlib.Data.Set.Insert
import Mathlib.Logic.Function.Basic

/-!
# Registries with deferred removals

A map from keys to objects, one of which is live.  A new object becomes live under a key
that may be taken already.  The object it supersedes stays in the map, and its removal
is deferred.  Until the removal runs, the key may have been given to another object, so
the removal names the object as well as the key, and leaves any other alone.

The structure carries what makes the map sound: the live object is registered, under one
key only, and no removal is deferred for it; every other object that is registered has a
deferred removal.  The operations are those that keep it.
-/

/-- Remove the object at `k`, if it is `want`. -/
def removeIf {K P : Type} [DecidableEq K] [DecidableEq P] (m : K → Option P) (k : K)
    (want : Option P) : K → Option P :=
  match m k with
  | none => m
  | some cur => if some cur ≠ want then m else Function.update m k none

/-- What a removal leaves: everything but the object it names, at the key it names. -/
theorem removeIf_eq_some_iff {K P : Type} [DecidableEq K] [DecidableEq P] {m : K → Option P}
    {k k' : K} {want : Option P} {p : P} :
    removeIf m k want k' = some p ↔ m k' = some p ∧ ¬ (k = k' ∧ want = some p) := by
  unfold removeIf
  cases hk : m k with
  | none =>
      refine ⟨fun h => ⟨h, ?_⟩, And.left⟩
      rintro ⟨rfl, -⟩
      cases hk.symm.trans h
  | some cur =>
      dsimp only
      by_cases hcur : some cur = want
      · rw [if_neg (not_not.mpr hcur)]
        by_cases hkey : k' = k
        · subst hkey
          rw [Function.update_self, hk, ← hcur]
          constructor
          · intro h
            cases h
          · rintro ⟨h, hne⟩
            exact (hne ⟨rfl, h⟩).elim
        · rw [Function.update_of_ne hkey]
          exact ⟨fun h => ⟨h, fun hk => hkey hk.1.symm⟩, And.left⟩
      · rw [if_pos hcur]
        refine ⟨fun h => ⟨h, ?_⟩, And.left⟩
        rintro ⟨rfl, hwant⟩
        exact hcur (hk.symm.trans (h.trans hwant.symm))

structure Registry (K P : Type) where
  entries : K → Option P
  /-- The key of the live object. -/
  home : K
  live : P
  /-- The deferred removals. -/
  due : Set (K × P)
  registered : entries home = some live
  atHome : ∀ k, entries k = some live → k = home
  spared : ∀ k, (k, live) ∉ due
  covered : ∀ k p, entries k = some p → p ≠ live → (k, p) ∈ due

namespace Registry

variable {K P : Type} [DecidableEq K]

/-- Start with one object.  Removals deferred before may still be on their way. -/
def single (k : K) (p : P) (due : Set (K × P)) (hdue : ∀ k', (k', p) ∉ due) : Registry K P where
  entries := Function.update (fun _ => none) k (some p)
  home := k
  live := p
  due := due
  registered := Function.update_self ..
  atHome k' h := by
    by_contra hk
    rw [Function.update_of_ne hk] at h
    cases h
  spared := hdue
  covered k' p' h hp := by
    by_cases hk : k' = k
    · rw [hk, Function.update_self] at h
      exact (hp (Option.some.inj h).symm).elim
    · rw [Function.update_of_ne hk] at h
      cases h

/-- The removals that are deferred once an object is live at `k`. -/
def deferred (r : Registry K P) (k : K) : Set (K × P) :=
  if r.home = k then r.due else insert (r.home, r.live) r.due

theorem mem_deferred {r : Registry K P} {k : K} {x : K × P} :
    x ∈ r.deferred k ↔ x ∈ r.due ∨ r.home ≠ k ∧ x = (r.home, r.live) := by
  unfold deferred
  split
  case isTrue h => simp [h]
  case isFalse h => simp [h, or_comm]

/-- Make a new object live. -/
def install (r : Registry K P) (k : K) (p : P) (hnew : ∀ k', r.entries k' ≠ some p)
    (hdue : ∀ k', (k', p) ∉ r.due) : Registry K P where
  entries := Function.update r.entries k (some p)
  home := k
  live := p
  due := r.deferred k
  registered := Function.update_self ..
  atHome k' h := by
    by_contra hk
    rw [Function.update_of_ne hk] at h
    exact hnew k' h
  spared k' h := by
    rcases mem_deferred.mp h with h | ⟨-, h⟩
    · exact hdue k' h
    · cases h
      exact hnew _ r.registered
  covered k' p' h hp := by
    by_cases hk : k' = k
    · rw [hk, Function.update_self] at h
      exact (hp (Option.some.inj h).symm).elim
    · rw [Function.update_of_ne hk] at h
      rw [mem_deferred]
      by_cases hlive : p' = r.live
      · subst hlive
        cases r.atHome k' h
        exact .inr ⟨hk, rfl⟩
      · exact .inl (r.covered k' p' h hlive)

/-- Run a deferred removal.  The same removal may be deferred more than once. -/
def remove [DecidableEq P] (r : Registry K P) (k : K) (p : P) (due : Set (K × P))
    (hrun : (k, p) ∈ r.due) (hdue : due ⊆ r.due) (hrest : ∀ x ∈ r.due, x ≠ (k, p) → x ∈ due) :
    Registry K P where
  entries := removeIf r.entries k (some p)
  home := r.home
  live := r.live
  due := due
  registered := by
    refine removeIf_eq_some_iff.mpr ⟨r.registered, ?_⟩
    rintro ⟨-, hp⟩
    cases hp
    exact r.spared k hrun
  atHome k' h := r.atHome k' (removeIf_eq_some_iff.mp h).1
  spared k' h := r.spared k' (hdue h)
  covered k' p' h hp := by
    obtain ⟨h, hother⟩ := removeIf_eq_some_iff.mp h
    refine hrest _ (r.covered k' p' h hp) fun heq => hother ?_
    cases heq
    exact ⟨rfl, rfl⟩

end Registry
