import GoIpsec.Lib.Go

/-!
# Procedures

A procedure is a call that reads and writes a state.  What it has written stays
written when it fails, so the state comes back beside the result and not inside
it.  A caller that handles the error of a call goes on from the state the call left
(`attempt`).
-/

namespace Golang

/-- A call on a state of type `σ`. -/
def Proc (σ α : Type) := σ → Go α × σ

namespace Proc

variable {σ α β : Type}

/-- End with a value or a fault and leave the state as it is. -/
def lift (x : Go α) : Proc σ α := fun s => (x, s)

/-- Return an error. -/
def raise (text : String) : Proc σ α := lift (fail text)

def get : Proc σ σ := fun s => (.ok s, s)

def modify (f : σ → σ) : Proc σ Unit := fun s => (.ok (), f s)

def bind (x : Proc σ α) (f : α → Proc σ β) : Proc σ β := fun s =>
  match x s with
  | (.ok a, s') => f a s'
  | (.error e, s') => (.error e, s')

instance : Monad (Proc σ) where
  pure a := lift (.ok a)
  bind := bind

/-- The error of a call, or nothing.  A panic is not an error and goes on. -/
def attempt (x : Proc σ α) : Proc σ (Option String) := fun s =>
  match x s with
  | (.ok _, s') => (.ok none, s')
  | (.error (.err text), s') => (.ok (some text), s')
  | (.error e, s') => (.error e, s')

/-- Run `h` before the error of `x` is returned. -/
def onError (x : Proc σ α) (h : Proc σ Unit) : Proc σ α := fun s =>
  match x s with
  | (.error (.err text), s') => bind h (fun _ => lift (.error (.err text))) s'
  | r => r

/-- Go on with `h` if `x` returns an error. -/
def recover (x : Proc σ α) (h : Proc σ α) : Proc σ α := fun s =>
  match x s with
  | (.error (.err _), s') => h s'
  | r => r

/-- Put a text in front of that of an error. -/
def wrap (pre : String) (x : Proc σ α) : Proc σ α := fun s => (wrapErr pre (x s).1, (x s).2)

theorem bind_of_ok {x : Proc σ α} {f : α → Proc σ β} {s s' : σ} {a : α} (h : x s = (.ok a, s')) :
    (x >>= f) s = f a s' := by
  change bind x f s = _
  rw [bind, h]

theorem bind_of_error {x : Proc σ α} {f : α → Proc σ β} {s s' : σ} {e : Fault}
    (h : x s = (.error e, s')) : (x >>= f) s = (.error e, s') := by
  change bind x f s = _
  rw [bind, h]

/-- A sequence returns if both of its calls do. -/
theorem bind_eq_ok {x : Proc σ α} {f : α → Proc σ β} {s s' : σ} {b : β}
    (h : (x >>= f) s = (.ok b, s')) : ∃ a s₁, x s = (.ok a, s₁) ∧ f a s₁ = (.ok b, s') := by
  rcases hx : x s with ⟨r, s₁⟩
  cases r with
  | ok a =>
      rw [bind_of_ok hx] at h
      exact ⟨a, s₁, rfl, h⟩
  | error e =>
      rw [bind_of_error hx] at h
      cases congrArg Prod.fst h

theorem eq_ok_of_fst {r : Go α × σ} {a : α} (h : r.1 = .ok a) : r = (.ok a, r.2) := Prod.ext h rfl

theorem lift_eq_ok {x : Go α} {s s' : σ} {a : α} (h : lift x s = (.ok a, s')) :
    x = .ok a ∧ s = s' :=
  Prod.mk.inj h

theorem bind_lift_of_ok {x : Go α} {f : α → Proc σ β} {s : σ} {a : α} (h : x = .ok a) :
    (lift x >>= f) s = f a s := by
  rw [h]
  rfl

/-- A test that guards a call has failed if the call returns. -/
theorem guard_eq_ok {p : Prop} [Decidable p] {text : String} {x : Proc σ α} {s s' : σ} {a : α}
    (h : (if p then raise text else x) s = (.ok a, s')) : ¬ p ∧ x s = (.ok a, s') := by
  by_cases hp : p
  · rw [if_pos hp] at h
    cases congrArg Prod.fst h
  · rw [if_neg hp] at h
    exact ⟨hp, h⟩

theorem wrap_eq_ok {pre : String} {x : Proc σ α} {s s' : σ} {a : α} :
    wrap pre x s = (.ok a, s') ↔ x s = (.ok a, s') := by
  rw [wrap, Prod.mk.injEq, wrapErr_eq_ok, Prod.ext_iff]

theorem bind_assoc {γ : Type} (x : Proc σ α) (f : α → Proc σ β) (g : β → Proc σ γ) :
    x >>= f >>= g = x >>= fun a => f a >>= g := by
  funext s
  rcases hx : x s with ⟨r, s'⟩
  cases r with
  | ok a =>
      rw [bind_of_ok hx]
      change bind (bind x f) g s = bind (f a) g s'
      rw [bind, show bind x f s = f a s' from bind_of_ok hx, bind]
  | error e =>
      rw [bind_of_error hx]
      exact bind_of_error (bind_of_error hx)

/-- The errors of the calls of a sequence are wrapped one by one. -/
theorem wrap_bind (pre : String) (x : Proc σ α) (f : α → Proc σ β) :
    wrap pre (x >>= f) = wrap pre x >>= fun a => wrap pre (f a) := by
  funext s
  rcases hx : x s with ⟨r, s'⟩
  have hwrap : wrap pre x s = (wrapErr pre r, s') := by rw [wrap, hx]
  cases r with
  | ok a => rw [bind_of_ok hwrap, wrap, bind_of_ok hx, wrap]
  | error e =>
      rw [wrap, bind_of_error hx]
      cases e <;> exact (bind_of_error hwrap).symm

/-- The state after a call whose error is ignored. -/
theorem attempt_bind_pure_snd (x : Proc σ α) (b : β) (s : σ) :
    ((attempt x >>= fun _ => (pure b : Proc σ β)) s).2 = (x s).2 := by
  change (bind (attempt x) _ s).2 = _
  rcases hx : x s with ⟨r, s'⟩
  simp only [bind, attempt, hx]
  cases r with
  | ok a => rfl
  | error e => cases e <;> rfl

/-- A handled call can be replaced by one that ends in the same way. -/
theorem attempt_bind_congr {x y : Proc σ α} {f : Option String → Proc σ β} {s s' : σ}
    (h : x s = y s') : (attempt x >>= f) s = (attempt y >>= f) s' := by
  change bind (attempt x) f s = bind (attempt y) f s'
  simp only [bind, attempt, h]

theorem attempt_bind_of_ok {x : Proc σ α} {f : Option String → Proc σ β} {s s' : σ} {a : α}
    (h : x s = (.ok a, s')) : (attempt x >>= f) s = f none s' :=
  bind_of_ok (by rw [attempt, h])

/-- A caller goes on after an error, and not after a panic. -/
theorem attempt_bind_of_error {x : Proc σ α} {f : Option String → Proc σ β} {s s' : σ} {e : Fault}
    (h : x s = (.error e, s')) :
    (∃ text, (attempt x >>= f) s = f (some text) s') ∨ (attempt x >>= f) s = (.error e, s') := by
  cases e with
  | err text => exact .inl ⟨text, bind_of_ok (by rw [attempt, h])⟩
  | panic => exact .inr (bind_of_error (by rw [attempt, h]))
  | diverge => exact .inr (bind_of_error (by rw [attempt, h]))

theorem attempt_bind_of_safe {x : Proc σ α} {f : Option String → Proc σ β} {s s' : σ} {r : Go α}
    (h : x s = (r, s')) (hr : Safe r) : ∃ o, (attempt x >>= f) s = f o s' := by
  cases r with
  | ok a => exact ⟨none, bind_of_ok (by rw [attempt, h])⟩
  | error e =>
      obtain ⟨text, rfl⟩ := hr e rfl
      exact ⟨some text, bind_of_ok (by rw [attempt, h])⟩

theorem attempt_bind_of_fault {x : Proc σ α} {f : Option String → Proc σ β} {s s' : σ} {r : Go α}
    (h : x s = (r, s')) (hr : ¬ Safe r) :
    ∃ e, (∀ text, e ≠ .err text) ∧ (attempt x >>= f) s = (.error e, s') := by
  cases r with
  | ok a => exact absurd (Safe.ok a) hr
  | error e =>
      cases e with
      | err text => exact absurd (Safe.fail text) hr
      | panic => exact ⟨.panic, nofun, bind_of_error (by rw [attempt, h])⟩
      | diverge => exact ⟨.diverge, nofun, bind_of_error (by rw [attempt, h])⟩

theorem onError_of_ok {x : Proc σ α} {y : Proc σ Unit} {s s' : σ} {a : α} (h : x s = (.ok a, s')) :
    onError x y s = (.ok a, s') := by
  rw [onError, h]

theorem onError_of_err {x : Proc σ α} {y : Proc σ Unit} {s s' : σ} {text : String}
    (h : x s = (.error (.err text), s')) :
    onError x y s = (y >>= fun _ => lift (.error (.err text))) s' := by
  rw [onError, h]
  rfl

theorem onError_of_fault {x : Proc σ α} {y : Proc σ Unit} {s s' : σ} {e : Fault}
    (h : x s = (.error e, s')) (he : ∀ text, e ≠ .err text) : onError x y s = (.error e, s') := by
  rw [onError, h]
  cases e with
  | err text => exact absurd rfl (he text)
  | panic => rfl
  | diverge => rfl

/-! ## Properties a call keeps -/

/-- Whatever the call does and however it ends, `P` still holds after it. -/
def Keeps (P : σ → Prop) (x : Proc σ α) : Prop := ∀ s, P s → P (x s).2

namespace Keeps

variable {P : σ → Prop} {x : Proc σ α}

theorem lift (r : Go α) : Keeps P (Proc.lift r) := fun _ h => h

theorem pure (a : α) : Keeps P (Pure.pure a) := fun _ h => h

theorem raise (text : String) : Keeps P (Proc.raise text : Proc σ α) := fun _ h => h

theorem get : Keeps P Proc.get := fun _ h => h

theorem modify {f : σ → σ} (hf : ∀ s, P s → P (f s)) : Keeps P (Proc.modify f) := hf

/-- What holds after a call holds after those that follow it and keep it. -/
theorem bind_snd {f : α → Proc σ β} {s : σ} (hx : P (x s).2) (hf : ∀ a, Keeps P (f a)) :
    P ((x >>= f) s).2 := by
  rcases hxs : x s with ⟨r, s'⟩
  rw [hxs] at hx
  cases r with
  | ok a =>
      rw [bind_of_ok hxs]
      exact hf a s' hx
  | error e =>
      rw [bind_of_error hxs]
      exact hx

theorem bind {f : α → Proc σ β} (hx : Keeps P x) (hf : ∀ a, Keeps P (f a)) :
    Keeps P (x >>= f) :=
  fun s hs => bind_snd (hx s hs) hf

theorem ite {p : Prop} [Decidable p] {y : Proc σ α} (hx : Keeps P x) (hy : Keeps P y) :
    Keeps P (if p then x else y) := by
  split
  · exact hx
  · exact hy

theorem wrap {pre : String} (hx : Keeps P x) : Keeps P (Proc.wrap pre x) := hx

theorem attempt (hx : Keeps P x) : Keeps P (Proc.attempt x) := by
  intro s hs
  have hend := hx s hs
  unfold Proc.attempt
  split <;> rename_i h <;> rw [h] at hend <;> exact hend

theorem onError {y : Proc σ Unit} (hx : Keeps P x) (hy : Keeps P y) : Keeps P (x.onError y) := by
  intro s hs
  have hend := hx s hs
  unfold Proc.onError
  split
  · rename_i h
    rw [h] at hend
    exact (hy.bind fun _ => lift _) _ hend
  · exact hend

/-- A call that fails is all that happens. -/
theorem bind_of_error {f : α → Proc σ β} {s : σ} {e : Fault} (hx : Keeps P x) (hs : P s)
    (he : (x s).1 = .error e) : P ((x >>= f) s).2 := by
  have hrun : x s = (.error e, (x s).2) := Prod.ext he rfl
  rw [Proc.bind_of_error hrun]
  exact hx s hs

end Keeps

theorem onError_fst_of_error {x : Proc σ α} {y : Proc σ Unit} {s : σ} {e : Fault}
    (h : (x s).1 = .error e) : ∃ e', (x.onError y s).1 = .error e' := by
  unfold onError
  split
  · unfold bind
    split
    · exact ⟨_, rfl⟩
    · exact ⟨_, rfl⟩
  · exact ⟨e, h⟩

/-- A call that fails and its handler are all that happens. -/
theorem Keeps.onError_bind_of_error {P : σ → Prop} {x : Proc σ α} {y : Proc σ Unit}
    {f : α → Proc σ β} {s : σ} {e : Fault} (hx : Keeps P x) (hy : Keeps P y) (hs : P s)
    (he : (x s).1 = .error e) : P ((x.onError y >>= f) s).2 := by
  obtain ⟨e', he'⟩ := onError_fst_of_error (y := y) he
  exact (hx.onError hy).bind_of_error hs he'

/-! ## Calls that do not crash -/

/-- The call ends in a value or an error, from any state. -/
def NoCrash (x : Proc σ α) : Prop := ∀ s, Safe (x s).1

namespace NoCrash

variable {x : Proc σ α}

theorem lift {r : Go α} (h : Safe r) : NoCrash (Proc.lift r : Proc σ α) := fun _ => h

theorem pure (a : α) : NoCrash (Pure.pure a : Proc σ α) := fun _ => Safe.ok a

theorem raise (text : String) : NoCrash (Proc.raise text : Proc σ α) := fun _ => Safe.fail text

theorem get : NoCrash (Proc.get : Proc σ σ) := fun s => Safe.ok s

theorem modify (f : σ → σ) : NoCrash (Proc.modify f) := fun _ => Safe.ok ()

theorem bind {f : α → Proc σ β} (hx : NoCrash x) (hf : ∀ a, NoCrash (f a)) : NoCrash (x >>= f) := by
  intro s
  rcases hxs : x s with ⟨r, s'⟩
  cases r with
  | ok a =>
      rw [bind_of_ok hxs]
      exact hf a s'
  | error e =>
      have hsafe := hx s
      rw [hxs] at hsafe
      rw [bind_of_error hxs]
      exact hsafe.of_error rfl

theorem guard {p : Prop} [Decidable p] {text : String} (hx : ¬ p → NoCrash x) :
    NoCrash (if p then Proc.raise text else x) := by
  split
  · exact raise text
  · exact hx ‹_›

theorem wrap (pre : String) (hx : NoCrash x) : NoCrash (Proc.wrap pre x) :=
  fun s => (hx s).wrapErr pre

end NoCrash

/-! ## Where a call leads -/

/-- The call ends in `Q`, or it fails in `E`. -/
def Leads (x : Proc σ α) (s : σ) (Q : α → σ → Prop) (E : σ → Prop) : Prop :=
  match x s with
  | (.ok a, s') => Q a s'
  | (.error _, s') => E s'

namespace Leads

variable {x : Proc σ α} {s : σ} {Q R : α → σ → Prop} {E : σ → Prop}

theorem intro (hQ : ∀ a s', x s = (.ok a, s') → Q a s') (hE : E (x s).2) : Leads x s Q E := by
  unfold Leads
  rcases hx : x s with ⟨r, s'⟩
  rw [hx] at hE
  cases r with
  | ok a => exact hQ a s' hx
  | error e => exact hE

/-- Where a call leads to if it returns can be found apart. -/
theorem of_result (hQ : ∀ a s', x s = (.ok a, s') → Q a s') (hE : Leads x s (fun _ _ => True) E) :
    Leads x s Q E := by
  rw [Leads] at hE ⊢
  rcases hx : x s with ⟨r, s'⟩
  rw [hx] at hE
  cases r with
  | ok a => exact hQ a s' hx
  | error e => exact hE

theorem of_ok (h : Leads x s Q E) {a : α} {s' : σ} (hx : x s = (.ok a, s')) : Q a s' := by
  rwa [Leads, hx] at h

theorem of_error (h : Leads x s Q E) {e : Fault} (hx : (x s).1 = .error e) : E (x s).2 := by
  rw [Leads] at h
  rcases hxs : x s with ⟨r, s'⟩
  rw [hxs] at h hx
  cases hx
  exact h

/-- The state after the call, if both ends are alike. -/
theorem snd (h : Leads x s (fun _ => E) E) : E (x s).2 := by
  rw [Leads] at h
  rcases hxs : x s with ⟨r, s'⟩
  rw [hxs] at h
  cases r <;> exact h

theorem mono (hx : Leads x s Q E) (h : ∀ a s', Q a s' → R a s') : Leads x s R E := by
  rcases hxs : x s with ⟨r, s'⟩
  rw [Leads, hxs] at hx ⊢
  cases r with
  | ok a => exact h a s' hx
  | error e => exact hx

theorem weaken {E' : σ → Prop} (hx : Leads x s Q E) (h : ∀ s', E s' → E' s') :
    Leads x s Q E' := by
  rcases hxs : x s with ⟨r, s'⟩
  rw [Leads, hxs] at hx ⊢
  cases r with
  | ok a => exact hx
  | error e => exact h s' hx

theorem wrap {pre : String} (hx : Leads x s Q E) : Leads (Proc.wrap pre x) s Q E := by
  rcases hxs : x s with ⟨r, s'⟩
  rw [Leads, hxs] at hx
  rw [Leads, Proc.wrap, hxs]
  cases r with
  | ok a => exact hx
  | error e => cases e <;> exact hx

theorem bind {f : α → Proc σ β} {R : β → σ → Prop} (hx : Leads x s Q E)
    (hf : ∀ a s', Q a s' → Leads (f a) s' R E) : Leads (x >>= f) s R E := by
  rcases hxs : x s with ⟨r, s'⟩
  rw [Leads, hxs] at hx
  cases r with
  | ok a =>
      rw [Leads, bind_of_ok hxs]
      exact hf a s' hx
  | error e =>
      rw [Leads, bind_of_error hxs]
      exact hx

theorem bind_of_ok {f : α → Proc σ β} {R : β → σ → Prop} {a : α} {s' : σ} (hx : x s = (.ok a, s'))
    (hf : Leads (f a) s' R E) : Leads (x >>= f) s R E := by
  rwa [Leads, Proc.bind_of_ok hx]

/-- A call that keeps `E`, and after it one that leads from there to `R`. -/
theorem bind_keeps {f : α → Proc σ β} {R : β → σ → Prop} (hx : Keeps E x) (hs : E s)
    (hf : ∀ a s', x s = (.ok a, s') → E s' → Leads (f a) s' R E) : Leads (x >>= f) s R E := by
  have hE := hx s hs
  rcases hxs : x s with ⟨r, s'⟩
  rw [hxs] at hE
  cases r with
  | ok a => exact bind_of_ok hxs (hf a s' hxs hE)
  | error e =>
      rw [Leads, bind_of_error hxs]
      exact hE

theorem bind_lift {r : Go α} {f : α → Proc σ β} {R : β → σ → Prop} (hE : E s)
    (hf : ∀ a, r = .ok a → Leads (f a) s R E) : Leads (Proc.lift r >>= f) s R E := by
  cases r with
  | ok a => exact hf a rfl
  | error e => exact hE

theorem guard {p : Prop} [Decidable p] {text : String} (hx : ¬ p → Leads x s Q E) (hE : E s) :
    Leads (if p then raise text else x) s Q E := by
  split
  · exact hE
  · exact hx ‹_›

end Leads

end Proc

end Golang
