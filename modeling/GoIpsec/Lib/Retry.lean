import Mathlib.Order.Lattice.Nat

/-!
# Retransmission

A request that is sent again until it is answered or has run out of tries.  Nothing wakes
it up: it is polled, and a poll after the time it is due sends it again and sets the next
time.  The delays grow with the number of attempts in any way.

Two bounds on when it is given up.  It is never given up before all its delays have passed
(`earliest`), and if polls are never further apart than `gap`, it is given up at most one
`gap` later for each attempt that is left (`latest`).
-/

namespace Golang

/-- A request under way: how often it was sent, and when it is due to be sent again. -/
structure Attempt where
  sent : Nat
  due : Nat
deriving Repr, DecidableEq

namespace Attempt

section

variable (delay : Nat → Nat) (tries : Nat)

/-- Look at the clock.  Nothing is left of a request that has run out of tries. -/
def poll (now : Nat) (a : Attempt) : Option Attempt :=
  if a.due < now then
    if tries < a.sent + 1 then none
    else some { sent := a.sent + 1, due := now + delay (a.sent + 1) }
  else some a

/-- The delays of the next `n` attempts behind attempt `k`. -/
def delays : Nat → Nat → Nat
  | 0, _ => 0
  | n + 1, k => delay (k + 1) + delays n (k + 1)

/-- No poll at or before this time gives the request up. -/
def earliest (a : Attempt) : Nat := a.due + delays delay (tries - a.sent) a.sent

/-- With the last poll at `last`, and polls never further apart than `gap`, the request is
answered or given up by this time. -/
def latest (gap last : Nat) (a : Attempt) : Nat :=
  max a.due last + delays delay (tries - a.sent) a.sent + (tries - a.sent + 1) * gap

end

section

variable {delay : Nat → Nat} {tries gap last now : Nat} {a b : Attempt}

theorem poll_eq_none : a.poll delay tries now = none ↔ a.due < now ∧ tries ≤ a.sent := by
  unfold poll
  split
  · split
    · simp only [true_iff]
      omega
    · simp only [reduceCtorEq, false_iff]
      omega
  · simp only [reduceCtorEq, false_iff]
    omega

theorem poll_eq_some (h : a.poll delay tries now = some b) :
    (now ≤ a.due ∧ b = a) ∨
      (a.due < now ∧ a.sent < tries ∧ b = { sent := a.sent + 1, due := now + delay (a.sent + 1) }) := by
  unfold poll at h
  split at h
  · split at h
    · cases h
    · cases h
      exact .inr ⟨by assumption, by omega, rfl⟩
  · cases h
    exact .inl ⟨by omega, rfl⟩

/-- What is left of the delays when one of them has begun. -/
theorem delays_of_lt {k : Nat} (h : k < tries) :
    delays delay (tries - k) k = delay (k + 1) + delays delay (tries - (k + 1)) (k + 1) := by
  obtain ⟨n, rfl⟩ : ∃ n, tries = k + 1 + n := ⟨tries - (k + 1), by omega⟩
  rw [show k + 1 + n - k = n + 1 by omega, show k + 1 + n - (k + 1) = n by omega, delays]

/-- A late poll can only put the end off. -/
theorem earliest_le_of_poll (h : a.poll delay tries now = some b) :
    a.earliest delay tries ≤ b.earliest delay tries := by
  rcases poll_eq_some h with ⟨-, rfl⟩ | ⟨hdue, hsent, rfl⟩
  · exact Nat.le_refl _
  · simp only [earliest, delays_of_lt hsent]
    omega

theorem earliest_lt_of_poll (h : a.poll delay tries now = none) : a.earliest delay tries < now := by
  obtain ⟨hdue, hsent⟩ := poll_eq_none.mp h
  rw [earliest, Nat.sub_eq_zero_of_le hsent, delays]
  exact hdue

/-- A poll that comes within the gap does not put the end off. -/
theorem latest_le_of_poll (hgap : now ≤ last + gap) (h : a.poll delay tries now = some b) :
    b.latest delay tries gap now ≤ a.latest delay tries gap last := by
  rcases poll_eq_some h with ⟨hdue, rfl⟩ | ⟨hdue, hsent, rfl⟩
  · simp only [latest]
    omega
  · have hrest : (tries - a.sent + 1) * gap = (tries - (a.sent + 1) + 1) * gap + gap := by
      rw [show tries - a.sent = tries - (a.sent + 1) + 1 by omega, Nat.succ_mul]
    simp only [latest, delays_of_lt hsent, hrest]
    omega

theorem le_latest_of_poll (hgap : now ≤ last + gap) (h : a.poll delay tries now = none) :
    now ≤ a.latest delay tries gap last := by
  obtain ⟨-, hle⟩ := poll_eq_none.mp h
  simp only [latest, Nat.sub_eq_zero_of_le hle, delays, Nat.zero_add, Nat.one_mul]
  omega

end

end Attempt

end Golang
