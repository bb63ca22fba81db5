import GoIpsec.Lib.Loop

/-!
# Fields that describe other octets

A binary format says in some of its octets how long others are, or how many items they
hold.  `Says` reads such a field, and `Laid` cuts a sequence of items into the octets of
each, so that what a field says can be compared with what is there.
-/

namespace Golang

/-- The `w` octets of `b` from `off` on say `v`. -/
def Says (b : Bytes) (off w v : Nat) : Prop :=
  off + w ≤ b.length ∧ getBE ((b.drop off).take w) = v

instance (b : Bytes) (off w v : Nat) : Decidable (Says b off w v) :=
  inferInstanceAs (Decidable (_ ∧ _))

theorem says_append {pre f rest : Bytes} {off w v : Nat} (hoff : pre.length = off)
    (hw : f.length = w) : Says (pre ++ (f ++ rest)) off w v ↔ getBE f = v := by
  have hfield : ((pre ++ (f ++ rest)).drop off).take w = f := by
    rw [← hoff, List.drop_left, ← hw, List.take_left]
  rw [Says, hfield]
  refine and_iff_right ?_
  simp only [List.length_append]
  omega

/-! ## What a narrowed number says -/

variable {b p r : Bytes} {off v : Nat}

theorem says_octet (hb : b = p ++ ([UInt8.ofNat v] ++ r)) (hoff : p.length = off) :
    Says b off 1 v ↔ v < 256 := by
  have hval : getBE [UInt8.ofNat v] = v % 256 := by
    rw [getBE_cons, UInt8.toNat_ofNat', getBE]
    simp
  rw [hb, says_append hoff (List.length_singleton ..), hval]
  omega

theorem says_uint16 (hb : b = p ++ (putUint16 (UInt16.ofNat v) ++ r)) (hoff : p.length = off) :
    Says b off 2 v ↔ v < 65536 := by
  rw [hb, says_append hoff (length_putUint16 _), putUint16, getBE_putBE_of_lt (UInt16.toNat_lt _),
    UInt16.toNat_ofNat']
  omega

theorem says_uint32 (hb : b = p ++ (putUint32 (UInt32.ofNat v) ++ r)) (hoff : p.length = off) :
    Says b off 4 v ↔ v < 4294967296 := by
  rw [hb, says_append hoff (length_putUint32 _), putUint32, getBE_putBE_of_lt (UInt32.toNat_lt _),
    UInt32.toNat_ofNat']
  omega

/-! ## Items -/

variable {α : Type}

/-- The octets are those of the items, one after the other.  Each item has its size and
what `ok` asks of its octets. -/
def Laid (size : α → Nat) (ok : α → Bytes → Prop) : List α → Bytes → Prop
  | [], b => b = []
  | a :: as, b => ok a (b.take (size a)) ∧ Laid size ok as (b.drop (size a))

theorem laid_cons {size : α → Nat} {ok : α → Bytes → Prop} {a : α} {as : List α} {e rest : Bytes}
    (h : e.length = size a) :
    Laid size ok (a :: as) (e ++ rest) ↔ ok a e ∧ Laid size ok as rest := by
  rw [Laid, ← h, List.take_left, List.drop_left]

/-- An encoding has the size `n`, and what `P` asks of its octets holds just if `Q`. -/
def Exactly (encoded : Go Bytes) (n : Nat) (P : Bytes → Prop) (Q : Prop) : Prop :=
  ∀ b, encoded = .ok b → b.length = n ∧ (P b ↔ Q)

theorem Exactly.writeAll {write : α → Bool → Go Bytes} {size : α → Nat} {ok : α → Bytes → Prop}
    {fits : α → Prop} (h : ∀ a more, Exactly (write a more) (size a) (ok a) (fits a)) :
    ∀ as, Exactly (writeAll write as) (as.map size).sum (Laid size ok as) (∀ a ∈ as, fits a)
  | [] => by
      intro b hb
      cases hb
      exact ⟨rfl, by simp [Laid]⟩
  | a :: as => by
      intro b hb
      simp only [Golang.writeAll, bind_eq_ok, pure_eq_ok, Except.ok.injEq] at hb
      obtain ⟨e, he, rest, hrest, rfl⟩ := hb
      obtain ⟨hlen, hok⟩ := h a _ e he
      obtain ⟨hlens, hoks⟩ := Exactly.writeAll h as rest hrest
      refine ⟨?_, ?_⟩
      · rw [List.length_append, hlen, hlens, List.map_cons, List.sum_cons]
      · rw [laid_cons hlen, hok, hoks, List.forall_mem_cons]

/-- Items that are always encoded. -/
theorem flatten_eq_writeAll (f : α → Bytes) :
    ∀ as : List α, writeAll (fun a _ => .ok (f a)) as = .ok (as.map f).flatten
  | [] => rfl
  | a :: as => by rw [writeAll, ok_bind, flatten_eq_writeAll f as]; rfl

end Golang
