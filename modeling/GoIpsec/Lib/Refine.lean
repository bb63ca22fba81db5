import GoIpsec.Lib.Proc
import Mathlib.Logic.Relation

/-!
# Procedures that refine a machine

A machine is a relation of steps on its states.  A procedure refines it if whatever
the procedure does to the state, the machine can do in some number of steps.  The
states of the machine are seen through a `view`, which may depend on auxiliary data
that the procedure does not keep.

`Refines step view s h x Q` speaks of one call of `x`, from the state `s` with the
auxiliary data `h`.  The postcondition `Q` gets the value or the error of the call.
A call that panics has no postcondition, but what it did up to there is still a run
of the machine.  The rules follow the ways calls are composed, so the proof of a
procedure has its shape, and a procedure is used through its own statement.
-/

namespace Golang

open Relation (ReflTransGen)

variable {σ α β M H : Type}

/-- `Q` for a call that ends with a value or an error. -/
def Ends (Q : Except String α → σ → H → Prop) : Go α → σ → H → Prop
  | .ok a, s, h => Q (.ok a) s h
  | .error (.err text), s, h => Q (.error text) s h
  | .error _, _, _ => True

theorem Ends.intro {Q : Except String α → σ → H → Prop} {s : σ} {h : H} (hQ : ∀ r, Q r s h)
    (r : Go α) : Ends Q r s h := by
  cases r with
  | ok a => exact hQ (.ok a)
  | error e =>
      cases e with
      | err text => exact hQ (.error text)
      | panic => trivial
      | diverge => trivial

/-- The call `x` on `s` is a run of the machine and ends in `Q`. -/
def Refines (step : M → M → Prop) (view : σ → H → M) (s : σ) (h : H) (x : Proc σ α)
    (Q : Except String α → σ → H → Prop) : Prop :=
  ∃ h', ReflTransGen step (view s h) (view (x s).2 h') ∧ Ends Q (x s).1 (x s).2 h'

namespace Refines

variable {step : M → M → Prop} {view : σ → H → M} {s : σ} {h : H} {x : Proc σ α}
  {Q R : Except String α → σ → H → Prop}

theorem weaken (hx : Refines step view s h x Q) (hQ : ∀ r s' h', Q r s' h' → R r s' h') :
    Refines step view s h x R := by
  obtain ⟨h', hrun, hend⟩ := hx
  refine ⟨h', hrun, ?_⟩
  cases hr : (x s).1 with
  | ok a =>
      rw [hr] at hend
      exact hQ _ _ _ hend
  | error e =>
      rw [hr] at hend
      cases e with
      | err text => exact hQ _ _ _ hend
      | panic => trivial
      | diverge => trivial

/-- The machine goes on after the call, whose state stays as it is. -/
theorem settle (hx : Refines step view s h x Q)
    (hQ : ∀ r s' h', Q r s' h' → ∃ h'', ReflTransGen step (view s' h') (view s' h'') ∧ R r s' h'') :
    Refines step view s h x R := by
  obtain ⟨h', hrun, hend⟩ := hx
  cases hr : (x s).1 with
  | ok a =>
      rw [hr] at hend
      obtain ⟨h'', hrun', hR⟩ := hQ _ _ _ hend
      exact ⟨h'', hrun.trans hrun', hr ▸ hR⟩
  | error e =>
      rw [hr] at hend
      cases e with
      | err text =>
          obtain ⟨h'', hrun', hR⟩ := hQ _ _ _ hend
          exact ⟨h'', hrun.trans hrun', hr ▸ hR⟩
      | panic => exact ⟨h', hrun, hr ▸ trivial⟩
      | diverge => exact ⟨h', hrun, hr ▸ trivial⟩

/-- A call that goes on as `y` does from another state, which the machine can reach. -/
theorem of_eq {y : Proc σ α} {s' : σ} {h' : H} (hxy : x s = y s')
    (hrun : ReflTransGen step (view s h) (view s' h')) (hy : Refines step view s' h' y Q) :
    Refines step view s h x Q := by
  obtain ⟨h'', hrun', hend⟩ := hy
  exact ⟨h'', hxy ▸ hrun.trans hrun', hxy ▸ hend⟩

/-- A call that is known to fail. -/
theorem failed {e : Fault} {s' : σ} (h' : H) (hx : x s = (.error e, s'))
    (hrun : ReflTransGen step (view s h) (view s' h'))
    (hQ : ∀ text, e = .err text → Q (.error text) s' h') : Refines step view s h x Q := by
  refine ⟨h', by rwa [hx], ?_⟩
  rw [hx]
  cases e with
  | err text => exact hQ text rfl
  | panic => trivial
  | diverge => trivial

theorem lift {r : Go α} (hQ : Ends Q r s h) : Refines step view s h (Proc.lift r) Q :=
  ⟨h, .refl, hQ⟩

theorem pure {a : α} (hQ : Q (.ok a) s h) : Refines step view s h (Pure.pure a : Proc σ α) Q :=
  ⟨h, .refl, hQ⟩

theorem bind {f : α → Proc σ β} {R : Except String β → σ → H → Prop}
    (hx : Refines step view s h x Q) (hok : ∀ a s' h', Q (.ok a) s' h' → Refines step view s' h' (f a) R)
    (herror : ∀ text s' h', Q (.error text) s' h' → R (.error text) s' h') :
    Refines step view s h (x >>= f) R := by
  obtain ⟨h', hrun, hend⟩ := hx
  rcases hxs : x s with ⟨r, s'⟩
  rw [hxs] at hrun hend
  cases r with
  | ok a =>
      obtain ⟨h'', hrun', hend'⟩ := hok a s' h' hend
      have heq : (x >>= f) s = f a s' := Proc.bind_of_ok hxs
      exact ⟨h'', heq ▸ hrun.trans hrun', heq ▸ hend'⟩
  | error e =>
      have heq : (x >>= f) s = (.error e, s') := Proc.bind_of_error hxs
      refine ⟨h', heq ▸ hrun, ?_⟩
      rw [heq]
      cases e with
      | err text => exact herror text s' h' hend
      | panic => trivial
      | diverge => trivial

/-- A call whose error is handled: the caller goes on after both. -/
theorem attempt_bind {f : Option String → Proc σ β} {R : Except String β → σ → H → Prop}
    (hx : Refines step view s h x Q)
    (hok : ∀ a s' h', Q (.ok a) s' h' → Refines step view s' h' (f none) R)
    (herror : ∀ text s' h', Q (.error text) s' h' → Refines step view s' h' (f (some text)) R) :
    Refines step view s h (Proc.attempt x >>= f) R := by
  obtain ⟨h', hrun, hend⟩ := hx
  rcases hxs : x s with ⟨r, s'⟩
  rw [hxs] at hrun hend
  cases r with
  | ok a =>
      obtain ⟨h'', hrun', hend'⟩ := hok a s' h' hend
      have heq : (Proc.attempt x >>= f) s = f none s' :=
        Proc.bind_of_ok (by rw [Proc.attempt, hxs])
      exact ⟨h'', heq ▸ hrun.trans hrun', heq ▸ hend'⟩
  | error e =>
      cases e with
      | err text =>
          obtain ⟨h'', hrun', hend'⟩ := herror text s' h' hend
          have heq : (Proc.attempt x >>= f) s = f (some text) s' :=
            Proc.bind_of_ok (by rw [Proc.attempt, hxs])
          exact ⟨h'', heq ▸ hrun.trans hrun', heq ▸ hend'⟩
      | panic =>
          have heq : (Proc.attempt x >>= f) s = (.error .panic, s') :=
            Proc.bind_of_error (by rw [Proc.attempt, hxs])
          exact ⟨h', heq ▸ hrun, heq ▸ trivial⟩
      | diverge =>
          have heq : (Proc.attempt x >>= f) s = (.error .diverge, s') :=
            Proc.bind_of_error (by rw [Proc.attempt, hxs])
          exact ⟨h', heq ▸ hrun, heq ▸ trivial⟩

/-- A call whose error is answered by `y` before it is returned. -/
theorem onError {y : Proc σ Unit} {S : σ → H → Prop} (hx : Refines step view s h x Q)
    (hy : ∀ text s' h', Q (.error text) s' h' → Refines step view s' h' y fun _ => S) :
    Refines step view s h (Proc.onError x y) fun r s' h' =>
      match r with
      | .ok a => Q (.ok a) s' h'
      | .error _ => S s' h' := by
  obtain ⟨h', hrun, hend⟩ := hx
  rcases hxs : x s with ⟨r, s'⟩
  rw [hxs] at hrun hend
  cases r with
  | ok a =>
      have heq : Proc.onError x y s = (.ok a, s') := Proc.onError_of_ok hxs
      exact ⟨h', heq ▸ hrun, heq ▸ hend⟩
  | error e =>
      cases e with
      | err text =>
          have heq : Proc.onError x y s =
              (y >>= fun _ => (Proc.lift (.error (.err text)) : Proc σ α)) s' :=
            Proc.onError_of_err hxs
          have hthen : Refines step view s' h' (y >>= fun _ => Proc.lift (.error (.err text)))
              fun (r : Except String α) s' h' =>
                match r with
                | .ok a => Q (.ok a) s' h'
                | .error _ => S s' h' :=
            bind (hy text s' h' hend) (fun _ _ _ hS => lift hS) (fun _ _ _ hS => hS)
          obtain ⟨h'', hrun', hend'⟩ := hthen
          exact ⟨h'', heq ▸ hrun.trans hrun', heq ▸ hend'⟩
      | panic =>
          have heq : Proc.onError x y s = (.error .panic, s') :=
            Proc.onError_of_fault hxs (fun _ he => by cases he)
          exact ⟨h', heq ▸ hrun, heq ▸ trivial⟩
      | diverge =>
          have heq : Proc.onError x y s = (.error .diverge, s') :=
            Proc.onError_of_fault hxs (fun _ he => by cases he)
          exact ⟨h', heq ▸ hrun, heq ▸ trivial⟩

end Refines

end Golang
