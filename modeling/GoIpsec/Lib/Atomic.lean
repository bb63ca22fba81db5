import Mathlib.Data.List.Basic
import Mathlib.Data.List.Range
import Mathlib.Data.List.Nodup
import Mathlib.Logic.Function.Basic
import Mathlib.Logic.Relation

/-!
# Values taken from a shared counter

Any number of callers share a counter.  A call takes the next value of it and then works
with that value on its own.  To take a value a caller loads the counter and compares and
swaps: if the counter has changed since the load, it starts over.  At its top value the
counter is exhausted, and a call that finds it there fails.

The load and the compare-and-swap are the atomic steps.  Between the steps of one caller
any steps of the others may lie.  A counter counts if a rank goes up by one from each value
below the top to the next (`Counts`).  Then the values that have been taken are the ones
after the first, in order, and no two calls work with the same (`Taken`).
-/

namespace Golang.Atomic

/-- Where a caller is.  `A` are the arguments of a call. -/
inductive Phase (V A : Type) where
  | idle
  /-- About to load the counter. -/
  | ready (a : A)
  /-- About to swap. -/
  | loaded (a : A) (v : V)
  /-- Has taken a value. -/
  | owner (a : A) (v : V)

/-- A call that has returned. -/
structure Return (ι V B : Type) where
  caller : ι
  /-- The value it took. -/
  value : Option V
  result : B

structure Shared (ι V A B : Type) where
  value : V
  phase : ι → Phase V A
  /-- The values taken, newest first. -/
  taken : List V := []
  /-- The calls that have returned, newest first. -/
  returned : List (Return ι V B) := []

/-- A counter, and what a call does with a value. -/
structure Counter (V A B : Type) where
  next : V → V
  top : V
  work : A → V → B
  /-- The result of a call that finds the counter exhausted. -/
  full : B

inductive Act (ι A : Type) where
  | call (i : ι) (a : A)
  | load (i : ι)
  | swap (i : ι)
  | finish (i : ι)

variable {ι V A B : Type} [DecidableEq ι]

/-- A caller gets to another point of its call. -/
def Shared.goto (s : Shared ι V A B) (i : ι) (p : Phase V A) : Shared ι V A B :=
  { s with phase := Function.update s.phase i p }

/-- A call returns. -/
def Shared.ret (s : Shared ι V A B) (i : ι) (v : Option V) (b : B) : Shared ι V A B :=
  { s.goto i .idle with returned := { caller := i, value := v, result := b } :: s.returned }

inductive Step (k : Counter V A B) : Shared ι V A B → Act ι A → Shared ι V A B → Prop
  | call {s : Shared ι V A B} {i : ι} (a : A) (h : s.phase i = .idle) :
      Step k s (.call i a) (s.goto i (.ready a))
  | load {s : Shared ι V A B} {i : ι} {a : A} (h : s.phase i = .ready a) (htop : s.value ≠ k.top) :
      Step k s (.load i) (s.goto i (.loaded a s.value))
  | full {s : Shared ι V A B} {i : ι} {a : A} (h : s.phase i = .ready a) (htop : s.value = k.top) :
      Step k s (.load i) (s.ret i none k.full)
  | swap {s : Shared ι V A B} {i : ι} {a : A} (h : s.phase i = .loaded a s.value) :
      Step k s (.swap i) { s.goto i (.owner a (k.next s.value)) with
        value := k.next s.value, taken := k.next s.value :: s.taken }
  /-- The counter has changed since the load. -/
  | retry {s : Shared ι V A B} {i : ι} {a : A} {v : V} (h : s.phase i = .loaded a v)
      (hne : s.value ≠ v) : Step k s (.swap i) (s.goto i (.ready a))
  | finish {s : Shared ι V A B} {i : ι} {a : A} {v : V} (h : s.phase i = .owner a v) :
      Step k s (.finish i) (s.ret i (some v) (k.work a v))

/-- Any number of steps, in any order of the callers. -/
def Steps (k : Counter V A B) : Shared ι V A B → Shared ι V A B → Prop :=
  Relation.ReflTransGen fun s s' => ∃ a, Step k s a s'

/-- Each value below the top has a next one, of the next rank. -/
def Counts (k : Counter V A B) (rank : V → Nat) : Prop :=
  ∀ v, v ≠ k.top → rank (k.next v) = rank v + 1

/-- The result of a call is that of its work, or it found the counter exhausted. -/
def Return.Proper (k : Counter V A B) (r : Return ι V B) : Prop :=
  r.value = none ∧ r.result = k.full ∨ ∃ a v, r.value = some v ∧ r.result = k.work a v

/-- The values the calls that have returned worked with. -/
def Shared.used (s : Shared ι V A B) : List V := s.returned.filterMap Return.value

/-- What has happened since the counter was at `v₀` and nobody was calling. -/
structure Taken (k : Counter V A B) (rank : V → Nat) (v₀ : V) (s : Shared ι V A B) : Prop where
  value : rank s.value = rank v₀ + s.taken.length
  taken : s.taken.map rank = (List.range' (rank v₀ + 1) s.taken.length).reverse
  /-- Nobody swaps the top value. -/
  loaded : ∀ i a v, s.phase i = .loaded a v → v ≠ k.top
  owned : ∀ i a v, s.phase i = .owner a v → v ∈ s.taken ∧ v ∉ s.used
  alone : ∀ i j a b v, s.phase i = .owner a v → s.phase j = .owner b v → i = j
  once : s.used.Nodup
  used : ∀ v ∈ s.used, v ∈ s.taken
  results : ∀ r ∈ s.returned, r.Proper k

section

variable {k : Counter V A B} {rank : V → Nat} {v₀ : V} {s s' : Shared ι V A B}

omit [DecidableEq ι] in
/-- The start of all runs. -/
theorem taken_start (k : Counter V A B) (rank : V → Nat) (v₀ : V) :
    Taken k rank v₀ ({ value := v₀, phase := fun _ => .idle } : Shared ι V A B) where
  value := rfl
  taken := rfl
  loaded := nofun
  owned := nofun
  alone := nofun
  once := List.nodup_nil
  used := nofun
  results := nofun

theorem goto_phase (s : Shared ι V A B) (i j : ι) (p : Phase V A) :
    (s.goto i p).phase j = if j = i then p else s.phase j := by
  exact Function.update_apply s.phase i p j

omit [DecidableEq ι] in
/-- The value the counter goes to has not been taken before. -/
theorem Taken.fresh (h : Taken k rank v₀ s) (hk : Counts k rank) (hne : s.value ≠ k.top) :
    k.next s.value ∉ s.taken := by
  intro hmem
  have hrank : rank (k.next s.value) ∈ s.taken.map rank := List.mem_map_of_mem hmem
  rw [h.taken, List.mem_reverse, List.mem_range'_1, hk _ hne, h.value] at hrank
  omega

/-- A caller that gets to a point at which it has no value. -/
theorem Taken.goto (h : Taken k rank v₀ s) (i : ι) {p : Phase V A}
    (hloaded : ∀ a v, p = .loaded a v → v ≠ k.top) (howner : ∀ a v, p ≠ .owner a v) :
    Taken k rank v₀ (s.goto i p) where
  value := h.value
  taken := h.taken
  loaded j a v hj := by
    rw [goto_phase] at hj
    split at hj
    · exact hloaded a v hj
    · exact h.loaded j a v hj
  owned j a v hj := by
    rw [goto_phase] at hj
    split at hj
    · exact absurd hj (howner a v)
    · exact h.owned j a v hj
  alone j j' a b v hj hj' := by
    rw [goto_phase] at hj hj'
    split at hj
    · exact absurd hj (howner a v)
    split at hj'
    · exact absurd hj' (howner b v)
    · exact h.alone j j' a b v hj hj'
  once := h.once
  used := h.used
  results := h.results

/-- A caller that takes the next value. -/
theorem Taken.swap (h : Taken k rank v₀ s) (hk : Counts k rank) {i : ι} {a : A}
    (hi : s.phase i = .loaded a s.value) :
    Taken k rank v₀ { s.goto i (.owner a (k.next s.value)) with
      value := k.next s.value, taken := k.next s.value :: s.taken } := by
  have hne := h.loaded i a s.value hi
  have hfresh := h.fresh hk hne
  have hrank : rank (k.next s.value) = rank v₀ + s.taken.length + 1 := by rw [hk _ hne, h.value]
  have hother {j : ι} {b : A} (hj : s.phase j = .owner b (k.next s.value)) : False :=
    hfresh (h.owned j b _ hj).1
  constructor
  case value =>
    rw [hrank, List.length_cons]
    omega
  case taken =>
    rw [List.map_cons, h.taken, hrank, List.length_cons, List.range'_1_concat, List.reverse_append]
    congr 1
    omega
  case loaded =>
    intro j b v hj
    rw [goto_phase] at hj
    split at hj
    · cases hj
    · exact h.loaded j b v hj
  case owned =>
    intro j b v hj
    rw [goto_phase] at hj
    split at hj
    · cases hj
      exact ⟨List.mem_cons_self, fun hused => hfresh (h.used _ hused)⟩
    · exact ⟨List.mem_cons_of_mem _ (h.owned j b v hj).1, (h.owned j b v hj).2⟩
  case alone =>
    intro j j' b b' v hj hj'
    rw [goto_phase] at hj hj'
    split at hj
    · cases hj
      split at hj'
      · rename_i hj₁ hj₂
        exact hj₁.trans hj₂.symm
      · exact (hother hj').elim
    · split at hj'
      · cases hj'
        exact (hother hj).elim
      · exact h.alone j j' b b' v hj hj'
  case once => exact h.once
  case used => exact fun v hv => List.mem_cons_of_mem _ (h.used v hv)
  case results => exact h.results

/-- A caller that is done with its value. -/
theorem Taken.finish (h : Taken k rank v₀ s) {i : ι} {a : A} {v : V} (hi : s.phase i = .owner a v) :
    Taken k rank v₀ (s.ret i (some v) (k.work a v)) := by
  obtain ⟨hmem, hfree⟩ := h.owned i a v hi
  have hidle : Taken k rank v₀ (s.goto i .idle) := h.goto i nofun nofun
  have hused : (s.ret i (some v) (k.work a v)).used = v :: s.used := rfl
  constructor
  case value => exact h.value
  case taken => exact h.taken
  case loaded => exact hidle.loaded
  case owned =>
    intro j b w hj
    obtain ⟨hw, hnot⟩ := hidle.owned j b w hj
    refine ⟨hw, ?_⟩
    rw [hused, List.mem_cons, not_or]
    refine ⟨?_, hnot⟩
    rintro rfl
    -- the value would have two owners
    have hphase : (s.goto i .idle).phase j = .owner b w := hj
    rw [goto_phase] at hphase
    split at hphase
    · cases hphase
    · rename_i hne
      exact hne (h.alone j i b a w hphase hi)
  case alone => exact hidle.alone
  case once =>
    rw [hused]
    exact List.nodup_cons.mpr ⟨hfree, h.once⟩
  case used =>
    rw [hused]
    intro w hw
    rcases List.mem_cons.mp hw with rfl | hw
    · exact hmem
    · exact h.used w hw
  case results =>
    intro r hr
    rcases List.mem_cons.mp hr with rfl | hr
    · exact .inr ⟨a, v, rfl, rfl⟩
    · exact h.results r hr

/-- A call that fails takes nothing. -/
theorem Taken.full (h : Taken k rank v₀ s) (i : ι) : Taken k rank v₀ (s.ret i none k.full) := by
  have hidle : Taken k rank v₀ (s.goto i .idle) := h.goto i nofun nofun
  refine ⟨h.value, h.taken, hidle.loaded, hidle.owned, hidle.alone, h.once, h.used, ?_⟩
  intro r hr
  rcases List.mem_cons.mp hr with rfl | hr
  · exact .inl ⟨rfl, rfl⟩
  · exact h.results r hr

theorem Taken.step (h : Taken k rank v₀ s) (hk : Counts k rank) {a : Act ι A}
    (hstep : Step k s a s') : Taken k rank v₀ s' := by
  cases hstep with
  | call a _ => exact h.goto _ nofun nofun
  | load _ htop =>
      refine h.goto _ (fun a v hv => ?_) nofun
      cases hv
      exact htop
  | full _ _ => exact h.full _
  | swap hi => exact h.swap hk hi
  | retry _ _ => exact h.goto _ nofun nofun
  | finish hi => exact h.finish hi

theorem Taken.steps (h : Taken k rank v₀ s) (hk : Counts k rank) (hsteps : Steps k s s') :
    Taken k rank v₀ s' := by
  induction hsteps with
  | refl => exact h
  | tail _ hstep ih =>
      obtain ⟨a, hstep⟩ := hstep
      exact ih.step hk hstep

/-- The counter stays, or it goes to the next value. -/
theorem Taken.value_step (h : Taken k rank v₀ s) {a : Act ι A} (hstep : Step k s a s') :
    s'.value = s.value ∧ s'.taken = s.taken ∨ s.value ≠ k.top ∧ s'.value = k.next s.value := by
  cases hstep with
  | swap hi => exact .inr ⟨h.loaded _ _ _ hi, rfl⟩
  | _ => exact .inl ⟨rfl, rfl⟩

/-- An exhausted counter stays so, and no value is taken any more. -/
theorem Taken.exhausted (h : Taken k rank v₀ s) (hk : Counts k rank) (htop : s.value = k.top)
    (hsteps : Steps k s s') : s'.value = k.top ∧ s'.taken = s.taken := by
  induction hsteps with
  | refl => exact ⟨htop, rfl⟩
  | tail hsteps hstep ih =>
      obtain ⟨a, hstep⟩ := hstep
      rcases (h.steps hk hsteps).value_step hstep with ⟨hvalue, htaken⟩ | ⟨hne, -⟩
      · exact ⟨hvalue.trans ih.1, htaken.trans ih.2⟩
      · exact absurd ih.1 hne

/-- A call that finds the counter exhausted fails. -/
theorem step_load_iff {i : ι} {a : A} (hi : s.phase i = .ready a) (htop : s.value = k.top) :
    Step k s (.load i) s' ↔ s' = s.ret i none k.full := by
  constructor
  · intro h
    cases h with
    | load _ hne => exact absurd htop hne
    | full _ _ => rfl
  · rintro rfl
    exact .full hi htop

end

end Golang.Atomic
