import GoIpsec.Lib.Proc

/-!
# An array that remembers its accesses

A loop that updates an array in place is right for two reasons: what it writes, and that
what it reads is still what it wants to read.  The first is seen in the result.  For the
second the array keeps a record of the loads and stores, and `Unspoilt` says that no load
in it comes after a store to the same place.
-/

namespace Golang

inductive Access where
  | load (i : Nat)
  | store (i : Nat)
deriving Repr, DecidableEq

/-- An array and its accesses, newest first. -/
structure Memory (α : Type) where
  cells : List α
  accesses : List Access := []
deriving Repr, DecidableEq

namespace Memory

variable {α : Type}

/-- `b[i]`. -/
def load (i : Nat) : Proc (Memory α) α := fun m =>
  (index m.cells i, { m with accesses := .load i :: m.accesses })

/-- `b[i] = x`. -/
def store (i : Nat) (x : α) : Proc (Memory α) Unit := fun m =>
  match setAt m.cells i x with
  | .ok cells => (.ok (), { cells, accesses := .store i :: m.accesses })
  | .error e => (.error e, m)

section

variable {β : Type} {cells : List α} {log : List Access} {i : Nat}

theorem load_bind {x : α} {f : α → Proc (Memory α) β} (h : index cells i = .ok x) :
    (load i >>= f) ⟨cells, log⟩ = f x ⟨cells, .load i :: log⟩ :=
  Proc.bind_of_ok (by rw [load, h])

theorem store_run (h : i < cells.length) (x : α) :
    store i x ⟨cells, log⟩ = (.ok (), ⟨cells.set i x, .store i :: log⟩) := by
  rw [store, setAt_ok h]

theorem store_bind {f : Unit → Proc (Memory α) β} (h : i < cells.length) (x : α) :
    (store i x >>= f) ⟨cells, log⟩ = f () ⟨cells.set i x, .store i :: log⟩ :=
  Proc.bind_of_ok (store_run h x)

end

end Memory

/-- No place was read after it was written. -/
def Unspoilt : List Access → Prop
  | [] => True
  | .load i :: log => .store i ∉ log ∧ Unspoilt log
  | .store _ :: log => Unspoilt log

end Golang
