import GoIpsec.Lib.Proc

/-!
# Protocols over a stream

A stream connection delivers its octets in pieces of any size and then ends.
`readFull` asks for a number of octets and collects pieces until it has them.  What it
returns depends on the octets alone and not on how they were cut.

A procedure on a connection is then described by a grammar (`Follows`): which octets it
takes when it returns.  The rules take a procedure apart from the front.  After a read of
`b`, what is left has to follow the words of the grammar that start with `b`.
-/

namespace Golang

/-- How the octets of a stream end. -/
inductive Ending where
  | eof
  | failed (text : String)
deriving Repr, DecidableEq

/-- The error of a read that met the end with `got` in the buffer. -/
def Ending.text (got : Bytes) : Ending → String
  | .eof => if got = [] then "EOF" else "unexpected EOF"
  | .failed text => text

/-- A connection: the pieces still to arrive, how they end, and what has been written, the
latest first. -/
structure Conn where
  pieces : List Bytes
  ending : Ending
  written : List Bytes
deriving Repr, DecidableEq

/-- What is still to arrive. -/
def Conn.octets (c : Conn) : Bytes := c.pieces.flatten

/-- Collect `n` more octets behind `got`.  A read takes what fits from the first piece and
leaves the rest of it to the next. -/
def collect (ending : Ending) : Nat → Bytes → List Bytes → Go Bytes × List Bytes
  | 0, got, pieces => (.ok got, pieces)
  | _ + 1, got, [] => (fail (ending.text got), [])
  | n + 1, got, p :: pieces =>
      if n + 1 ≤ p.length then (.ok (got ++ p.take (n + 1)), p.drop (n + 1) :: pieces)
      else collect ending (n + 1 - p.length) (got ++ p) pieces

/-- Read exactly `n` octets. -/
def readFull (n : Nat) : Proc Conn Bytes := fun c =>
  let (r, pieces) := collect c.ending n [] c.pieces
  (r, { c with pieces })

/-- Write `b`.  `fails` gives the error of each write, if it has one. -/
def write (fails : Nat → Option String) (b : Bytes) : Proc Conn Unit := fun c =>
  let c' := { c with written := b :: c.written }
  match fails c.written.length with
  | none => (.ok (), c')
  | some text => (fail text, c')

/-! ## Reads -/

theorem collect_enough (ending : Ending) {n : Nat} (got : Bytes) {pieces : List Bytes}
    (h : n ≤ pieces.flatten.length) :
    ∃ left, collect ending n got pieces = (.ok (got ++ pieces.flatten.take n), left) ∧
      left.flatten = pieces.flatten.drop n := by
  induction pieces generalizing n got with
  | nil =>
      obtain rfl : n = 0 := Nat.le_zero.mp h
      exact ⟨[], by simp [collect], rfl⟩
  | cons p pieces ih =>
      cases n with
      | zero => exact ⟨p :: pieces, by simp [collect], rfl⟩
      | succ n =>
          rw [List.flatten_cons, List.length_append] at h
          rw [collect]
          by_cases hp : n + 1 ≤ p.length
          · rw [if_pos hp, List.flatten_cons, List.take_append_of_le_length hp,
              List.drop_append_of_le_length hp]
            exact ⟨_, rfl, rfl⟩
          · have hle : p.length ≤ n + 1 := Nat.le_of_not_le hp
            obtain ⟨left, hleft, hflat⟩ := @ih (n + 1 - p.length) (got ++ p) (by omega)
            refine ⟨left, ?_, ?_⟩
            · rw [if_neg hp, hleft, List.flatten_cons, List.take_append, List.take_of_length_le hle,
                List.append_assoc]
            · rw [hflat, List.flatten_cons, List.drop_append, List.drop_of_length_le hle, List.nil_append]

theorem collect_short (ending : Ending) {n : Nat} (got : Bytes) {pieces : List Bytes}
    (h : pieces.flatten.length < n) :
    ∃ text left, collect ending n got pieces = (fail text, left) := by
  induction pieces generalizing n got with
  | nil =>
      cases n with
      | zero => cases h
      | succ n => exact ⟨_, _, rfl⟩
  | cons p pieces ih =>
      cases n with
      | zero => cases h
      | succ n =>
          rw [List.flatten_cons, List.length_append] at h
          rw [collect, if_neg (by omega)]
          exact ih _ (by omega)

/-- Enough octets are read, however they were cut. -/
theorem readFull_enough {n : Nat} {c : Conn} (h : n ≤ c.octets.length) :
    ∃ c', readFull n c = (.ok (c.octets.take n), c') ∧ c'.octets = c.octets.drop n ∧
      c'.written = c.written := by
  obtain ⟨left, hleft, hflat⟩ := collect_enough c.ending [] h
  exact ⟨{ c with pieces := left }, by rw [readFull, hleft]; rfl, hflat, rfl⟩

theorem readFull_eq_ok {n : Nat} {c c' : Conn} {b : Bytes} (h : readFull n c = (.ok b, c')) :
    b.length = n ∧ c.octets = b ++ c'.octets ∧ c'.written = c.written := by
  by_cases hn : n ≤ c.octets.length
  · obtain ⟨c₁, hread, hoctets, hwritten⟩ := readFull_enough hn
    cases hread.symm.trans h
    rw [hoctets, List.take_append_drop, List.length_take, Nat.min_eq_left hn]
    exact ⟨rfl, rfl, hwritten⟩
  · obtain ⟨text, left, hleft⟩ :=
      collect_short c.ending [] (Nat.lt_of_not_le hn)
    rw [readFull, hleft] at h
    cases h

/-! ## Grammars -/

variable {α β : Type}

/-- The procedure returns exactly when the octets to come start with a word of `G`, takes
that word and returns its value.  `G m u n a` is the word `u` with the value `a`, read from
the `m`-th write on and up to the `n`-th. -/
structure Follows (x : Proc Conn α) (G : Nat → Bytes → Nat → α → Prop) : Prop where
  sound : ∀ {c a c'}, x c = (.ok a, c') →
    ∃ u, c.octets = u ++ c'.octets ∧ G c.written.length u c'.written.length a
  complete : ∀ {c u rest n a}, c.octets = u ++ rest → G c.written.length u n a →
    ∃ c', x c = (.ok a, c') ∧ c'.octets = rest ∧ c'.written.length = n

namespace Follows

variable {x : Proc Conn α} {G : Nat → Bytes → Nat → α → Prop}

theorem congr {G' : Nat → Bytes → Nat → α → Prop} (h : Follows x G)
    (hG : ∀ m u n a, G m u n a ↔ G' m u n a) : Follows x G' where
  sound hx := by
    obtain ⟨u, hu, hword⟩ := h.sound hx
    exact ⟨u, hu, (hG _ _ _ _).mp hword⟩
  complete hu hword := h.complete hu ((hG _ _ _ _).mpr hword)

/-- A procedure that never returns. -/
theorem never (hx : ∀ c, ∃ e, (x c).1 = .error e) (hG : ∀ m u n a, ¬G m u n a) : Follows x G where
  sound {c} _ _ h := by
    obtain ⟨e, he⟩ := hx c
    rw [h] at he
    cases he
  complete _ hword := (hG _ _ _ _ hword).elim

theorem raise (text : String) (hG : ∀ m u n a, ¬G m u n a) : Follows (Proc.raise text) G :=
  never (fun _ => ⟨_, rfl⟩) hG

/-- A call whose error is ignored, before an error is returned. -/
theorem attempt_error (y : Proc Conn β) {r : Go α} {e : Fault} (hr : r = .error e)
    (hG : ∀ m u n a, ¬G m u n a) : Follows (Proc.attempt y >>= fun _ => Proc.lift r) G := by
  refine never (fun c => ?_) hG
  rcases hy : Proc.attempt y c with ⟨o, c'⟩
  cases o with
  | ok o => exact ⟨e, (congrArg Prod.fst (Proc.bind_of_ok hy)).trans hr⟩
  | error e' => exact ⟨e', congrArg Prod.fst (Proc.bind_of_error hy)⟩

theorem pure (a : α) (hG : ∀ m u n b, G m u n b ↔ u = [] ∧ n = m ∧ b = a) :
    Follows (Pure.pure a) G where
  sound h := by
    cases h
    exact ⟨[], rfl, (hG _ _ _ _).mpr ⟨rfl, rfl, rfl⟩⟩
  complete hu hword := by
    obtain ⟨rfl, rfl, rfl⟩ := (hG _ _ _ _).mp hword
    exact ⟨_, rfl, hu, rfl⟩

theorem ite {p : Prop} [Decidable p] {y : Proc Conn α} (hx : p → Follows x G)
    (hy : ¬p → Follows y G) : Follows (if p then x else y) G := by
  by_cases hp : p
  · rw [if_pos hp]
    exact hx hp
  · rw [if_neg hp]
    exact hy hp

/-- After a read of `b`, the words that start with `b` are left. -/
theorem read {k : Nat} {f : Bytes → Proc Conn α}
    (hf : ∀ b, b.length = k → Follows (f b) fun m u n a => G m (b ++ u) n a)
    (hk : ∀ m u n a, G m u n a → k ≤ u.length) : Follows (readFull k >>= f) G where
  sound h := by
    obtain ⟨b, c₁, hread, hrest⟩ := Proc.bind_eq_ok h
    obtain ⟨hlen, hoctets, hwritten⟩ := readFull_eq_ok hread
    obtain ⟨u, hu, hword⟩ := (hf b hlen).sound hrest
    rw [hwritten] at hword
    exact ⟨b ++ u, by rw [hoctets, hu, List.append_assoc], hword⟩
  complete {c u rest n a} hu hword := by
    have hlen := hk _ _ _ _ hword
    obtain ⟨c₁, hread, hoctets, hwritten⟩ :=
      readFull_enough (n := k) (c := c) (by rw [hu, List.length_append]; omega)
    rw [hu, List.take_append_of_le_length hlen] at hread
    rw [hu, List.drop_append_of_le_length hlen] at hoctets
    rw [← List.take_append_drop k u, ← hwritten] at hword
    rw [Proc.bind_of_ok hread]
    exact (hf _ (by rw [List.length_take, Nat.min_eq_left hlen])).complete hoctets hword

theorem write {fails : Nat → Option String} {b : Bytes} :
    Follows (Golang.write fails b) fun m u n _ => u = [] ∧ fails m = none ∧ n = m + 1 where
  sound {c} a c' h := by
    cases hfails : fails c.written.length with
    | some text =>
        simp only [Golang.write, hfails] at h
        cases h
    | none =>
        simp only [Golang.write, hfails] at h
        cases h
        exact ⟨[], rfl, rfl, rfl, rfl⟩
  complete {c u rest n a} hu hword := by
    obtain ⟨rfl, hfails, rfl⟩ := hword
    exact ⟨{ c with written := b :: c.written }, by simp only [Golang.write, hfails], hu, rfl⟩

theorem bind {f : α → Proc Conn β} {H : α → Nat → Bytes → Nat → β → Prop} (hx : Follows x G)
    (hf : ∀ a, Follows (f a) (H a)) :
    Follows (x >>= f) fun m u n b => ∃ u₁ k a u₂, u = u₁ ++ u₂ ∧ G m u₁ k a ∧ H a k u₂ n b where
  sound h := by
    obtain ⟨a, c₁, hfirst, hrest⟩ := Proc.bind_eq_ok h
    obtain ⟨u₁, hu₁, hword₁⟩ := hx.sound hfirst
    obtain ⟨u₂, hu₂, hword₂⟩ := (hf a).sound hrest
    exact ⟨u₁ ++ u₂, by rw [hu₁, hu₂, List.append_assoc], u₁, _, a, u₂, rfl, hword₁, hword₂⟩
  complete hu hword := by
    obtain ⟨u₁, k, a, u₂, rfl, hword₁, hword₂⟩ := hword
    rw [List.append_assoc] at hu
    obtain ⟨c₁, hfirst, hoctets, hwritten⟩ := hx.complete hu hword₁
    rw [Proc.bind_of_ok hfirst]
    exact (hf a).complete hoctets (hwritten ▸ hword₂)

/-- A write goes on if it succeeds. -/
theorem write_bind {fails : Nat → Option String} {b : Bytes} {f : Unit → Proc Conn α}
    (hf : Follows (f ()) G) :
    Follows (Golang.write fails b >>= f) fun m u n a => fails m = none ∧ G (m + 1) u n a :=
  (bind write fun _ => hf).congr fun m u n a => by
    constructor
    · rintro ⟨_, _, _, u, rfl, ⟨rfl, hfails, rfl⟩, hword⟩
      exact ⟨hfails, hword⟩
    · rintro ⟨hfails, hword⟩
      exact ⟨[], m + 1, (), u, rfl, ⟨rfl, hfails, rfl⟩, hword⟩

end Follows

end Golang
