import GoIpsec.Esp.Concurrent
import GoIpsec.Esp.Delivery
import GoIpsec.Ipsec.Ports
import GoIpsec.Session.Endpoints

/-!
# Datagrams through the tunnel

Two clients at the two ends of one IKE SA, each with its control loop and its data plane.
While the loops replace Child SAs and IKE SAs, either client sends datagrams under the SAs
it has, and receives what the network brings: packets of the other client in any order, any
number of times, late or never, and packets that nobody has sent.

An SA is known by what it was made for, the first Child SA or an exchange.  The SAs of the
two clients for one exchange feed each other, because the exchange gave both ends the same
result.  A packet that an SA takes for authentic was sent under its counterpart.  So each
datagram that comes out at one end went in at the other, and no oftener.
-/

set_option linter.dupNamespace false

namespace GoIpsec.Esp

open Golang

/-- The SA is `new` after some packets. -/
def SA.Continues (new sa : SA) : Prop := sa = { new with seq := sa.seq, replay := sa.replay }

namespace SA.Continues

variable {c : Crypto} {new sa tx rx : SA}

theorem refl (sa : SA) : SA.Continues sa sa := rfl

theorem symm (h : new.Continues sa) : sa.Continues new := by
  rw [Continues] at h
  rw [h]
  rfl

theorem encrypt (h : new.Continues sa) (rand : RandRead) (inner : Bytes) :
    new.Continues (sa.encrypt c rand inner).2 := by
  rw [Continues] at h
  by_cases hfull : sa.seq = 0xFFFFFFFF
  · rw [SA.encrypt, if_pos hfull]
    exact h
  · rw [SA.encrypt_state rand inner hfull, Continues, h]

theorem decrypt (h : new.Continues sa) (pkt : Bytes) : new.Continues (sa.decrypt c pkt).2 := by
  rw [Continues] at h
  unfold SA.decrypt
  split
  · exact h
  split
  · exact h
  · rw [Continues, h]

theorem outSPI (h : new.Continues sa) : sa.outSPI = new.outSPI := by
  rw [Continues] at h
  rw [h]

theorem complementary (h : tx.Continues sa) (h' : rx.Continues new) (hc : Complementary tx rx) :
    Complementary sa new := by
  rw [Continues] at h h'
  rw [h, h']
  exact hc

end SA.Continues

theorem SA.decrypt_eq_ok {c : Crypto} {sa : SA} {pkt inner : Bytes} (h : (sa.decrypt c pkt).1 = .ok inner) :
    ∃ v, sa.verify c pkt = .ok v ∧ v.finish = .ok inner := by
  unfold SA.decrypt at h
  split at h
  · cases h
  · rename_i v hv
    split at h
    · cases h
    · dsimp only at h
      split at h
      · exact ⟨v, hv, h⟩
      · cases h

/-- The number the anti-replay window is asked for is the one the packet carries. -/
theorem seqOf_of_verify {c : Crypto} {sa : SA} {pkt : Bytes} {v : Verified}
    (h : sa.verify c pkt = .ok v) : seqOf pkt = .ok v.seq := by
  have hheader {α : Type} {rest : UInt32 → Go α} {x : α}
      (h : (checkSPI pkt sa.inSPI >>= fun _ => slice pkt 4 8 >>= fun b => uint32 b >>= rest) = .ok x) :
      ∃ seq, seqOf pkt = .ok seq ∧ rest seq = .ok x := by
    simp only [bind_eq_ok] at h
    obtain ⟨-, -, b, hb, seq, hseq, hrest⟩ := h
    exact ⟨seq, by rw [seqOf, hb, ok_bind, hseq], hrest⟩
  unfold SA.verify at h
  split at h
  · unfold verifyCBC at h
    split at h
    · cases h
    obtain ⟨seq, hseq, hrest⟩ := hheader h
    simp only [bind_eq_ok] at hrest
    obtain ⟨_, _, _, _, hrest⟩ := hrest
    split at hrest
    · cases hrest
    · cases hrest
      exact hseq
  · unfold verifyAEAD at h
    split at h
    · cases h
    obtain ⟨seq, hseq, hrest⟩ := hheader h
    simp only [bind_eq_ok] at hrest
    obtain ⟨_, _, _, _, _, _, plain, _, hrest⟩ := hrest
    cases plain with
    | none => cases hrest
    | some plain =>
        cases hrest
        exact hseq

end GoIpsec.Esp

namespace GoIpsec.Ipsec

open Golang Session
open Ikesa (Role)

/-! ## What an SA was made for -/

/-- The first Child SA of a session, or an exchange and our part in it. -/
inductive Origin where
  | first
  | exchange (part : Role) (key : RequestKey)
deriving Repr, DecidableEq

/-- The same seen from the other end. -/
def Origin.mirror : Origin → Origin
  | .first => .first
  | .exchange part (g, msgID) => .exchange part.other (g.mirror, msgID)

@[simp] theorem Origin.mirror_mirror (o : Origin) : o.mirror.mirror = o := by
  cases o with
  | first => rfl
  | exchange part key =>
      obtain ⟨g, msgID⟩ := key
      simp only [Origin.mirror, Lineage.mirror_mirror]
      cases part <;> rfl

/-- What the SAs of a session were made for, in the order they were allocated. -/
def origins : List Event → List Origin
  | [] => [.first]
  | .install part slot msgID _ :: log =>
      origins log ++ [.exchange part ((lineage log).at slot, msgID)]
  | _ :: log => origins log

theorem mem_installs_of_mem_origins {part : Role} {key : RequestKey} {log : List Event}
    (h : .exchange part key ∈ origins log) : ∃ u, (key, u) ∈ installs part log := by
  induction log with
  | nil => simp [origins] at h
  | cons e log ih =>
      have hsuffix := installs_suffix part (List.suffix_cons e log)
      cases e with
      | install role slot msgID u =>
          rcases List.mem_append.mp h with h | h
          · obtain ⟨u, hu⟩ := ih h
            exact ⟨u, hsuffix hu⟩
          · cases List.mem_singleton.mp h
            exact ⟨u, by simp [installs]⟩
      | _ =>
          obtain ⟨u, hu⟩ := ih h
          exact ⟨u, hsuffix hu⟩

/-- No two SAs were made for the same, if no exchange gave two. -/
theorem nodup_origins {log : List Event} (h : ∀ part, ((installs part log).map Prod.fst).Nodup) :
    (origins log).Nodup := by
  induction log with
  | nil => simp [origins]
  | cons e log ih =>
      cases e with
      | install role slot msgID u =>
          have hbefore (part : Role) : ((installs part log).map Prod.fst).Nodup := by
            have hpart := h part
            by_cases hrole : role = part
            · rw [installs, if_pos hrole, List.map_cons] at hpart
              exact hpart.of_cons
            · rw [installs, if_neg hrole] at hpart
              exact hpart
          have hnew : Origin.exchange role ((lineage log).at slot, msgID) ∉ origins log := by
            intro hmem
            obtain ⟨v, hv⟩ := mem_installs_of_mem_origins hmem
            have hrole := h role
            rw [installs, if_pos rfl, List.map_cons] at hrole
            exact (List.nodup_cons.mp hrole).1 (List.mem_map.mpr ⟨_, hv, rfl⟩)
          rw [origins, List.nodup_append]
          refine ⟨ih hbefore, List.nodup_singleton _, fun o ho o' ho' => ?_⟩
          cases List.mem_singleton.mp ho'
          rintro rfl
          exact hnew ho
      | _ => exact ih h

/-- A log that has grown has the SAs it had, in their places. -/
theorem origins_suffix {log log' : List Event} (h : log <:+ log') : origins log <+: origins log' := by
  induction log' with
  | nil =>
      rw [List.suffix_nil.mp h]
  | cons e log' ih =>
      rcases List.suffix_cons_iff.mp h with rfl | h
      · exact List.prefix_rfl
      · refine (ih h).trans ?_
        cases e with
        | install => exact List.prefix_append _ _
        | _ => exact List.prefix_rfl

/-- The two halves of one Child SA, each as the end that has it records it. -/
structure Halves (child child' : ChildSA) : Prop where
  suite : child.suite = child'.suite
  out : child.responderSPI = child'.initiatorSPI
  inb : child.initiatorSPI = child'.responderSPI
  encr : child.keys.encrIR = child'.keys.encrRI
  integ : child.keys.integIR = child'.keys.integRI
  encr' : child.keys.encrRI = child'.keys.encrIR
  integ' : child.keys.integRI = child'.keys.integIR

/-- The SA has been built for `o`, by a session whose first Child SA is `child`. -/
def Made (w : UInt32) (child : ChildSA) (log : List Event) (sa : Esp.SA) : Origin → Prop
  | .first => ∃ new, espSAFromChild w child = .ok new ∧ new.Continues sa
  | .exchange part key => ∃ u new, (key, u) ∈ installs part log ∧
      Esp.newSA u.suite u.newOutSPI u.newInSPI u.outEncr u.outInteg u.inEncr u.inInteg w = .ok new ∧
      new.Continues sa

section

variable {w w' : UInt32} {child child' : ChildSA} {log log' P : List Event} {sa sa' : Esp.SA} {o : Origin}

theorem Made.mono (h : Made w child log sa o) (hlog : log <:+ log') : Made w child log' sa o := by
  cases o with
  | first => exact h
  | exchange part key =>
      obtain ⟨u, new, hu, hnew, hsa⟩ := h
      exact ⟨u, new, installs_suffix part hlog hu, hnew, hsa⟩

/-- A packet later. -/
theorem Made.later (h : Made w child log sa o)
    (hlater : ∀ new : Esp.SA, new.Continues sa → new.Continues sa') : Made w child log sa' o := by
  cases o with
  | first =>
      obtain ⟨new, hnew, hsa⟩ := h
      exact ⟨new, hnew, hlater new hsa⟩
  | exchange part key =>
      obtain ⟨u, new, hu, hnew, hsa⟩ := h
      exact ⟨u, new, hu, hnew, hlater new hsa⟩

theorem complementary_of_complements {u v : ChildSAUpdate} {new new' : Esp.SA} (h : u.Complements v)
    (hu : Esp.newSA u.suite u.newOutSPI u.newInSPI u.outEncr u.outInteg u.inEncr u.inInteg w = .ok new)
    (hv : Esp.newSA v.suite v.newOutSPI v.newInSPI v.outEncr v.outInteg v.inEncr v.inInteg w' = .ok new') :
    Esp.Complementary new new' ∧ Esp.Complementary new' new := by
  rw [← h.suite, ← h.out, ← h.inb, ← h.outEncr, ← h.outInteg, ← h.inEncr, ← h.inInteg] at hv
  exact ⟨Esp.newSA_complementary hu hv, Esp.newSA_complementary hv hu⟩

theorem eq_of_mem_installs {part : Role} (h : ((installs part log).map Prod.fst).Nodup) {key : RequestKey}
    {u v : ChildSAUpdate} (hu : (key, u) ∈ installs part log) (hv : (key, v) ∈ installs part log) :
    u = v :=
  congrArg Prod.snd (List.inj_on_of_nodup_map h hu hv rfl)

/-- SAs that were made for the two sides of the same feed each other. -/
theorem Made.complementary (hchildren : Halves child child') (hmatched : InstallsMatched log P)
    (hmatched' : InstallsMatched P log) (hnodup : ∀ part, ((installs part log).map Prod.fst).Nodup)
    (hnodup' : ∀ part, ((installs part P).map Prod.fst).Nodup) (h : Made w child log sa o)
    (h' : Made w' child' P sa' o.mirror) : Esp.Complementary sa sa' := by
  cases o with
  | first =>
      obtain ⟨new, hnew, hsa⟩ := h
      obtain ⟨new', hnew', hsa'⟩ := h'
      refine hsa.complementary hsa' ?_
      rw [espSAFromChild] at hnew hnew'
      rw [← hchildren.suite, ← hchildren.out, ← hchildren.inb, ← hchildren.encr, ← hchildren.integ,
        ← hchildren.encr', ← hchildren.integ'] at hnew'
      exact Esp.newSA_complementary hnew hnew'
  | exchange part key =>
      obtain ⟨g, msgID⟩ := key
      obtain ⟨u, new, hu, hnew, hsa⟩ := h
      obtain ⟨v, new', hv, hnew', hsa'⟩ := h'
      refine hsa.complementary hsa' ?_
      cases part with
      | initiator =>
          obtain ⟨v', hv', hcomp⟩ := hmatched g msgID u hu
          cases eq_of_mem_installs (hnodup' .responder) hv hv'
          exact (complementary_of_complements hcomp hnew hnew').1
      | responder =>
          obtain ⟨u', hu', hcomp⟩ := hmatched' g.mirror msgID v hv
          rw [Lineage.mirror_mirror] at hu'
          cases eq_of_mem_installs (hnodup .responder) hu hu'
          exact (complementary_of_complements hcomp hnew' hnew).2

end

/-! ## The SAs of a client -/

/-- The SAs of a client are those its session has installed. -/
structure Stocked (w : UInt32) (child : ChildSA) (log : List Event) (heap : List Esp.SA) : Prop where
  length : heap.length = (origins log).length
  made : ∀ (p : Nat) (sa : Esp.SA), heap[p]? = some sa →
    ∃ o, (origins log)[p]? = some o ∧ Made w child log sa o

section

variable {c : Crypto} {r : Rules} {m m' : Machine} {w : UInt32} {child : ChildSA} {log log' : List Event}
  {heap : List Esp.SA} {cl : Client}

theorem Stocked.set (h : Stocked w child log heap) {p : Ptr} {sa sa' : Esp.SA} (hp : heap[p]? = some sa)
    (hlater : ∀ new : Esp.SA, new.Continues sa → new.Continues sa') :
    Stocked w child log (heap.set p sa') where
  length := by rw [List.length_set, h.length]
  made q sa₁ hq := by
    by_cases hpq : p = q
    · subst hpq
      rw [List.getElem?_set_self (List.getElem?_eq_some_iff.mp hp).1] at hq
      cases hq
      obtain ⟨o, ho, hmade⟩ := h.made p sa hp
      exact ⟨o, ho, hmade.later hlater⟩
    · rw [List.getElem?_set_ne hpq] at hq
      exact h.made q sa₁ hq

theorem Stocked.append (h : Stocked w child log heap) (hlog : log <:+ log') {sa : Esp.SA} {o : Origin}
    (horigins : origins log' = origins log ++ [o]) (hmade : Made w child log' sa o) :
    Stocked w child log' (heap ++ [sa]) where
  length := by rw [horigins, List.length_append, List.length_append, h.length]; rfl
  made p sa₁ hp := by
    rw [horigins]
    by_cases hlt : p < heap.length
    · rw [List.getElem?_append_left hlt] at hp
      obtain ⟨o', ho', hmade'⟩ := h.made p sa₁ hp
      rw [List.getElem?_append_left (h.length ▸ hlt)]
      exact ⟨o', ho', hmade'.mono hlog⟩
    · obtain rfl : p = heap.length := by
        have hp' := (List.getElem?_eq_some_iff.mp hp).1
        rw [List.length_append, List.length_singleton] at hp'
        omega
      rw [List.getElem?_concat_length] at hp
      cases hp
      rw [h.length, List.getElem?_concat_length]
      exact ⟨o, rfl, hmade⟩

theorem Stocked.congr (h : Stocked w child log heap) (hlog : log <:+ log')
    (horigins : origins log' = origins log) : Stocked w child log' heap where
  length := by rw [horigins, h.length]
  made p sa hp := by
    obtain ⟨o, ho, hmade⟩ := h.made p sa hp
    exact ⟨o, by rw [horigins, ho], hmade.mono hlog⟩

/-- A move installs nothing, or a Child SA whose keys fit. -/
theorem origins_of_move (hmove : Move c r m m') :
    (updates m'.log = updates m.log ∧ origins m'.log = origins m.log) ∨
      ∃ u part key, Keyed u.suite u.outEncr u.outInteg u.inEncr u.inInteg ∧
        (key, u) ∈ installs part m'.log ∧ updates m'.log = u :: updates m.log ∧
        origins m'.log = origins m.log ++ [.exchange part key] := by
  cases hmove with
  | receive | finish | takeUp | handled | unanswered | dead | notice | resent | expire | answer
  | childDeleted | lower | drop | abandon | refused | completeIKE | acceptIKE => exact .inl ⟨rfl, rfl⟩
  | @request kind => exact .inl (by cases kind <;> exact ⟨rfl, rfl⟩)
  | complete hreply hresult =>
      refine .inr ⟨_, .initiator, _, ?_, List.mem_cons_self, rfl, rfl⟩
      exact childRekeyResult_keyed (fun s hs => mem_of_mem_enabledSuites hs) hresult
  | accept _ _ _ _ _ haccept =>
      exact .inr ⟨_, .responder, _, keyed_of_acceptsChild haccept, List.mem_cons_self, rfl, rfl⟩

theorem heap_installChildSA {u : ChildSAUpdate} {sa : Esp.SA}
    (h : Esp.newSA u.suite u.newOutSPI u.newInSPI u.outEncr u.outInteg u.inEncr u.inInteg w = .ok sa) :
    (cl.installChildSA w u).heap = cl.heap ++ [sa] := by
  simp only [Client.installChildSA, h]
  split <;> rfl

/-- The Child SAs that a turn installs are there after it. -/
theorem Stocked.turn {d : Drive} {fin : Bool} {us : List ChildSAUpdate} {env : Env} {input : Input}
    (h : Stocked w child cl.session.log cl.heap) (hdp : cl.session.s.dataPlane = true)
    (hstep : driverStep c env input cl.session = (.ok fin, d))
    (hus : updates d.log = us ++ updates cl.session.log) :
    Stocked w child d.log (us.foldr (Client.installChildSA w) cl).heap := by
  -- what holds along the moves of the turn, for the installs made so far
  let Inv (m : Machine) : Prop := ∃ vs, updates m.log = vs ++ updates cl.session.log ∧
    Stocked w child m.log (vs.foldr (Client.installChildSA w) cl).heap
  have hmove (m m' : Machine) (hm : Inv m) (hmv : Move c anyInput m m') : Inv m' := by
    obtain ⟨vs, hvs, hstocked⟩ := hm
    rcases origins_of_move hmv with ⟨hlog, horigins⟩ | ⟨u, part, key, hkeyed, hu, hlog, horigins⟩
    · exact ⟨vs, hlog.trans hvs, hstocked.congr hmv.log_suffix horigins⟩
    · obtain ⟨sa, hsa, -⟩ := hkeyed.newSA u.newOutSPI u.newInSPI w
      refine ⟨u :: vs, by rw [hlog, hvs]; rfl, ?_⟩
      rw [List.foldr_cons, heap_installChildSA hsa]
      exact hstocked.append hmv.log_suffix horigins ⟨u, sa, hu, hsa, .refl sa⟩
  have hstart : Inv (cl.session.view {}) := ⟨[], rfl, h⟩
  obtain ⟨⟨vs, hvs, hstocked⟩, -⟩ := driverStep_invariant hmove hstart hdp admitted_anyInput hstep
  obtain rfl : vs = us := List.append_cancel_right (hvs.symm.trans hus)
  exact hstocked

/-- The SAs that a turn adds are new. -/
theorem heap_foldr_installChildSA (w : UInt32) (us : List ChildSAUpdate) (cl : Client) :
    ∃ new, (us.foldr (Client.installChildSA w) cl).heap = cl.heap ++ new ∧
      ∀ sa ∈ new, sa.replay = Esp.newReplayWindow w := by
  induction us with
  | nil => exact ⟨[], (List.append_nil _).symm, nofun⟩
  | cons u us ih =>
      obtain ⟨new, hnew, hreplay⟩ := ih
      rw [List.foldr_cons]
      generalize us.foldr (Client.installChildSA w) cl = cl₁ at hnew
      cases hsa : Esp.newSA u.suite u.newOutSPI u.newInSPI u.outEncr u.outInteg u.inEncr u.inInteg w with
      | error e => exact ⟨new, by simp only [Client.installChildSA, hsa, hnew], hreplay⟩
      | ok sa =>
          refine ⟨new ++ [sa], by rw [heap_installChildSA hsa, hnew, List.append_assoc], fun sa' hsa' => ?_⟩
          rcases List.mem_append.mp hsa' with hsa' | hsa'
          · exact hreplay sa' hsa'
          · cases List.mem_singleton.mp hsa'
            simp only [Esp.newSA, bind_eq_ok, pure_eq_ok, Except.ok.injEq] at hsa
            obtain ⟨_, _, rfl⟩ := hsa
            rfl

end

/-! ## Traffic -/

/-- A datagram that was sent or delivered, the packet it was in, and the SA. -/
structure Carried where
  sa : Ptr
  inner : Bytes
  pkt : Bytes
deriving Repr, DecidableEq

/-- The packet is authentic to an SA, has a number, and opens to the datagram. -/
def Carried.Opens (c : Crypto) (t : Carried) (rx : Esp.SA) : Prop :=
  ∃ v, rx.verify c t.pkt = .ok v ∧ v.seq ≠ 0 ∧ v.finish = .ok t.inner

/-- A client and its traffic, newest first. -/
structure Post where
  client : Client
  sent : List Carried := []
  delivered : List Carried := []

namespace Post

def log (x : Post) : List Event := x.client.session.log

/-- A call of Write, which has loaded the SA of the tunnel at some time. -/
def send (c : Crypto) (p : Ptr) (rand : RandRead) (inner : Bytes) (x : Post) : Post :=
  match x.client.heap[p]? with
  | none => x
  | some sa =>
      let r := sa.encrypt c rand inner
      let x := { x with client := { x.client with heap := x.client.heap.set p r.2 } }
      match r.1 with
      | .ok pkt => { x with sent := { sa := p, inner, pkt } :: x.sent }
      | .error _ => x

/-- The SA for the SPI of a packet, in a registry. -/
def found (reg : UInt32 → Option Ptr) (raw : Bytes) : Option Ptr :=
  (Demux.spiOf raw).toOption.bind reg

/-- The reader of the socket gets a datagram.  It has loaded the registry at some time. -/
def receive (c : Crypto) (reg : UInt32 → Option Ptr) (raw : Bytes) (now : Time) (x : Post) : Post :=
  let d := (Demux.receive c raw now { inbound := reg, heap := x.client.heap }).2
  { x with
    client := { x.client with heap := d.heap }
    delivered := d.delivered.map (fun inner => { sa := (found reg raw).getD 0, inner, pkt := raw }) ++
      x.delivered }

/-- The SAs of two clients that were made for the two sides of the same. -/
def Opposite (x y : Post) (p q : Ptr) : Prop :=
  ∃ o, (origins x.log)[p]? = some o ∧ (origins y.log)[q]? = some o.mirror

/-- What a client does while the other is `y`. -/
inductive Advance (c : Crypto) (w : UInt32) (y : Post) : Post → Post → Prop
  | turn {x : Post} {d : Drive} {fin : Bool} {us : List ChildSAUpdate} (env : Env) (input : Input)
      (hgoing : x.client.stopped = false) (hgenuine : input.Genuine c env x.client.session y.log)
      (hstep : driverStep c env input x.client.session = (.ok fin, d))
      (hus : updates d.log = us ++ updates x.log) :
      Advance c w y x { x with client :=
        { us.foldr (Client.installChildSA w) x.client with session := d, stopped := fin } }
  | fire {x : Post} {t : GraceTimer} (ht : t ∈ x.client.armed) :
      Advance c w y x { x with client := x.client.fire t }
  | callback {x : Post} {t : GraceTimer} (ht : t ∈ x.client.started) :
      Advance c w y x { x with client := x.client.callback t }
  | prune {x : Post} {t : GraceTimer} (ht : t ∈ x.client.ending) :
      Advance c w y x { x with client := x.client.prune t }
  | send {x : Post} (p : Ptr) (rand : RandRead) (inner : Bytes) :
      Advance c w y x (x.send c p rand inner)
  /-- What the SA takes for authentic was sent under its counterpart. -/
  | receive {x : Post} (reg : UInt32 → Option Ptr) (raw : Bytes) (now : Time)
      (hgenuine : ∀ p sa v, found reg raw = some p → x.client.heap[p]? = some sa →
        sa.verify c raw = .ok v → ∃ t ∈ y.sent, t.pkt = raw ∧ Opposite x y p t.sa) :
      Advance c w y x (x.receive c reg raw now)

end Post

/-- The runs of two clients. -/
inductive Traffic (c : Crypto) (w w' : UInt32) (a₀ b₀ : Post) : Post → Post → Prop
  | refl : Traffic c w w' a₀ b₀ a₀ b₀
  | left {a a' b : Post} (h : Traffic c w w' a₀ b₀ a b) (hstep : Post.Advance c w b a a') :
      Traffic c w w' a₀ b₀ a' b
  | right {a b b' : Post} (h : Traffic c w w' a₀ b₀ a b) (hstep : Post.Advance c w' a b b') :
      Traffic c w w' a₀ b₀ a b'

/-! ## One client -/

namespace Post

/-- The number that a packet carries. -/
def number (pkt : Bytes) : Nat :=
  match Esp.seqOf pkt with
  | .ok seq => seq.toNat
  | .error _ => 0

/-- The numbers of the packets that were delivered under an SA. -/
def taken (x : Post) (p : Ptr) : Finset Nat :=
  ((x.delivered.filter (·.sa = p)).map fun t => number t.pkt).toFinset

/-- A packet that was sent opens at the counterpart of its SA, each window has the numbers
that were delivered, and no number was delivered twice. -/
structure Sound (c : Crypto) (w : UInt32) (x : Post) : Prop where
  sent : ∀ t ∈ x.sent, ∃ sa, x.client.heap[t.sa]? = some sa ∧ IsPacket sa.outSPI t.pkt ∧
    ∀ rx, Esp.Complementary sa rx → t.Opens c rx
  window : ∀ (p : Nat) (sa : Esp.SA), x.client.heap[p]? = some sa →
    Esp.Represents (Esp.installedSize w) sa.replay (x.taken p)
  once : (x.delivered.map fun t => (t.sa, number t.pkt)).Nodup
  placed : ∀ t ∈ x.delivered, t.sa < x.client.heap.length

section

variable {c : Crypto} {w : UInt32} {x y : Post} {p : Ptr}

theorem mem_taken {n : Nat} : n ∈ x.taken p ↔ ∃ t ∈ x.delivered, t.sa = p ∧ number t.pkt = n := by
  simp only [taken, List.mem_toFinset, List.mem_map, List.mem_filter, decide_eq_true_eq, and_assoc]

theorem number_of_verify {sa : Esp.SA} {pkt : Bytes} {v : Esp.Verified} (h : sa.verify c pkt = .ok v) :
    number pkt = v.seq.toNat := by
  rw [number, Esp.seqOf_of_verify h]

theorem eq_of_classify_esp {raw payload : Bytes} (h : classify raw = .ok (.esp, payload)) :
    payload = raw := by
  simp only [classify, bind_eq_ok] at h
  obtain ⟨alive, -, h⟩ := h
  split at h
  · cases h
  split at h
  · simp only [bind_eq_ok] at h
    obtain ⟨word, -, n, -, h⟩ := h
    split at h
    · simp only [bind_eq_ok] at h
      obtain ⟨rest, -, h⟩ := h
      cases h
    · cases h
      rfl
  · cases h

/-- A datagram goes to the SA that was found for it, or changes nothing. -/
theorem receive_cases (c : Crypto) (reg : UInt32 → Option Ptr) (raw : Bytes) (now : Time) (x : Post) :
    x.receive c reg raw now = x ∨
      ∃ p sa, found reg raw = some p ∧ x.client.heap[p]? = some sa ∧
        (x.receive c reg raw now).client.heap = x.client.heap.set p (sa.decrypt c raw).2 ∧
        ((∃ inner, (sa.decrypt c raw).1 = .ok inner ∧
            (x.receive c reg raw now).delivered = { sa := p, inner, pkt := raw } :: x.delivered) ∨
          (∃ e, (sa.decrypt c raw).1 = .error e) ∧
            (x.receive c reg raw now).delivered = x.delivered) := by
  obtain ⟨⟨kind, payload⟩, hkind⟩ := classify_ok raw
  cases kind with
  | esp =>
      obtain rfl := eq_of_classify_esp hkind
      by_cases hlen : payload.length < 4
      · left
        simp only [receive, Demux.receive, hkind, Demux.receiveESP, if_pos hlen]
        rfl
      cases hspi : Demux.spiOf payload with
      | error e =>
          left
          simp only [receive, Demux.receive, hkind, Demux.receiveESP, if_neg hlen, hspi]
          rfl
      | ok spi =>
          cases hp : reg spi with
          | none =>
              left
              simp only [receive, Demux.receive, hkind, Demux.receiveESP, if_neg hlen, hspi, hp]
              rfl
          | some p =>
              have hfound : found reg payload = some p := by simp only [found, hspi]; exact hp
              cases hsa : x.client.heap[p]? with
              | none =>
                  left
                  simp only [receive, Demux.receive, hkind, Demux.receiveESP, if_neg hlen, hspi, hp,
                    Demux.deliver, hsa]
                  rfl
              | some sa =>
                  right
                  refine ⟨p, sa, hfound, hsa, ?_⟩
                  simp only [receive, Demux.receive, hkind, Demux.receiveESP, if_neg hlen, hspi, hp,
                    Demux.deliver, hsa, hfound]
                  rcases (sa.decrypt c payload).1 with e | inner
                  · rcases e with text | _ | _ <;> exact ⟨rfl, .inr ⟨⟨_, rfl⟩, rfl⟩⟩
                  · exact ⟨rfl, .inl ⟨inner, rfl, rfl⟩⟩
  | ike =>
      left
      simp only [receive, Demux.receive, hkind, Demux.receiveIKE, Proc.modify, List.length_nil]
      rfl
  | keepalive | unknown =>
      left
      simp only [receive, Demux.receive, hkind]
      rfl

theorem log_receive (c : Crypto) (reg : UInt32 → Option Ptr) (raw : Bytes) (now : Time) (x : Post) :
    (x.receive c reg raw now).log = x.log := rfl

/-- A packet for an SPI that is registered, and that decrypts under the SA. -/
theorem receive_packet {reg : UInt32 → Option Ptr} {spi : UInt32} {raw inner : Bytes} {now : Time}
    {sa sa' : Esp.SA} (hpacket : IsPacket spi raw) (hspi : spi ≠ 0) (hreg : reg spi = some p)
    (hp : x.client.heap[p]? = some sa) (hdec : sa.decrypt c raw = (.ok inner, sa')) :
    (x.receive c reg raw now).delivered = { sa := p, inner, pkt := raw } :: x.delivered := by
  have hlen : ¬ raw.length < 4 := by
    obtain ⟨seq, rest, rfl⟩ := hpacket
    rw [List.length_append, Esp.length_espHeader]
    omega
  have hfound : found reg raw = some p := by
    rw [found, spiOf_packet hpacket]
    exact hreg
  simp only [receive, Demux.receive, (classify_packet hpacket).mpr hspi, Demux.receiveESP, if_neg hlen,
    spiOf_packet hpacket, hreg, Demux.deliver, hp, hdec, hfound]
  rfl

theorem taken_congr (h : y.delivered = x.delivered) (p : Ptr) : y.taken p = x.taken p := by
  rw [taken, taken, h]

theorem taken_cons {t : Carried} (h : y.delivered = t :: x.delivered) (p : Ptr) :
    y.taken p = if t.sa = p then insert (number t.pkt) (x.taken p) else x.taken p := by
  simp only [taken, h, List.filter_cons, decide_eq_true_eq]
  split <;> simp

/-- Nothing is sent or delivered, and the SAs that come in are new. -/
theorem Sound.append (h : x.Sound c w) (hsent : y.sent = x.sent) (hdelivered : y.delivered = x.delivered)
    {new : List Esp.SA} (hheap : y.client.heap = x.client.heap ++ new)
    (hnew : ∀ sa ∈ new, sa.replay = Esp.newReplayWindow w) : y.Sound c w where
  sent t ht := by
    rw [hsent] at ht
    obtain ⟨sa, hsa, hopens⟩ := h.sent t ht
    refine ⟨sa, ?_, hopens⟩
    rw [hheap, List.getElem?_append_left (List.getElem?_eq_some_iff.mp hsa).1, hsa]
  window p sa hp := by
    rw [taken_congr hdelivered]
    rw [hheap] at hp
    by_cases hlt : p < x.client.heap.length
    · rw [List.getElem?_append_left hlt] at hp
      exact h.window p sa hp
    · rw [List.getElem?_append_right (Nat.le_of_not_lt hlt)] at hp
      have hnone : x.taken p = ∅ := by
        refine Finset.eq_empty_of_forall_notMem fun n hn => ?_
        obtain ⟨t, ht, rfl, -⟩ := mem_taken.mp hn
        exact hlt (h.placed t ht)
      rw [hnone, hnew sa (List.mem_of_getElem? hp)]
      exact Esp.represents_newReplayWindow w
  once := by rw [hdelivered]; exact h.once
  placed t ht := by
    rw [hdelivered] at ht
    rw [hheap, List.length_append]
    exact Nat.lt_add_right _ (h.placed t ht)

/-- A call of Write leaves all of a client alone but the SA. -/
theorem send_frame (c : Crypto) (p : Ptr) (rand : RandRead) (inner : Bytes) (x : Post) :
    (x.send c p rand inner).client.session = x.client.session ∧
      (x.send c p rand inner).client.stopped = x.client.stopped ∧
      (x.send c p rand inner).delivered = x.delivered ∧ x.sent ⊆ (x.send c p rand inner).sent := by
  unfold Post.send
  split
  · exact ⟨rfl, rfl, rfl, List.Subset.refl _⟩
  · dsimp only
    split
    · exact ⟨rfl, rfl, rfl, List.subset_cons_self _ _⟩
    · exact ⟨rfl, rfl, rfl, List.Subset.refl _⟩

theorem replay_encrypt (sa : Esp.SA) (rand : RandRead) (inner : Bytes) :
    (sa.encrypt c rand inner).2.replay = sa.replay := by
  by_cases hfull : sa.seq = 0xFFFFFFFF
  · rw [Esp.SA.encrypt, if_pos hfull]
  · rw [Esp.SA.encrypt_state rand inner hfull]

/-- What an SA that has changed since sent still opens at its counterpart. -/
theorem Sound.sent_set (h : x.Sound c w) {sa sa' : Esp.SA} (hp : x.client.heap[p]? = some sa)
    (hlater : sa.Continues sa') {t : Carried} (ht : t ∈ x.sent) :
    ∃ sa₁, (x.client.heap.set p sa')[t.sa]? = some sa₁ ∧ IsPacket sa₁.outSPI t.pkt ∧
      ∀ rx, Esp.Complementary sa₁ rx → t.Opens c rx := by
  obtain ⟨sa₁, hsa₁, hpacket, hopens⟩ := h.sent t ht
  by_cases hpt : p = t.sa
  · subst hpt
    cases hp.symm.trans hsa₁
    refine ⟨sa', List.getElem?_set_self (List.getElem?_eq_some_iff.mp hsa₁).1, ?_, fun rx hrx => ?_⟩
    · rw [hlater.outSPI]
      exact hpacket
    · exact hopens rx (hlater.symm.complementary (.refl rx) hrx)
  · exact ⟨sa₁, by rw [List.getElem?_set_ne hpt, hsa₁], hpacket, hopens⟩

theorem seq_ne_zero {sa : Esp.SA} {rand : RandRead} {inner pkt : Bytes}
    (h : (sa.encrypt c rand inner).1 = .ok pkt) : sa.seq + 1 ≠ 0 := by
  have hfull : sa.seq ≠ 0xFFFFFFFF := by
    intro hfull
    rw [Esp.SA.encrypt, if_pos hfull] at h
    cases h
  intro hzero
  have hsucc := Esp.toNat_succ hfull
  rw [hzero] at hsucc
  cases hsucc

theorem Sound.send (h : x.Sound c w) (p : Ptr) (rand : RandRead) (inner : Bytes) :
    (x.send c p rand inner).Sound c w := by
  cases hp : x.client.heap[p]? with
  | none =>
      simp only [Post.send, hp]
      exact h
  | some sa =>
      have hlater : sa.Continues (sa.encrypt c rand inner).2 := (Esp.SA.Continues.refl sa).encrypt rand inner
      have hwindow (q : Nat) (sa₁ : Esp.SA)
          (hq : (x.client.heap.set p (sa.encrypt c rand inner).2)[q]? = some sa₁) :
          Esp.Represents (Esp.installedSize w) sa₁.replay (x.taken q) := by
        by_cases hpq : p = q
        · subst hpq
          rw [List.getElem?_set_self (List.getElem?_eq_some_iff.mp hp).1] at hq
          cases hq
          rw [replay_encrypt]
          exact h.window p sa hp
        · rw [List.getElem?_set_ne hpq] at hq
          exact h.window q sa₁ hq
      have hplaced (t : Carried) (ht : t ∈ x.delivered) :
          t.sa < (x.client.heap.set p (sa.encrypt c rand inner).2).length := by
        rw [List.length_set]
        exact h.placed t ht
      simp only [Post.send, hp]
      cases hpkt : (sa.encrypt c rand inner).1 with
      | error e => exact ⟨fun t ht => h.sent_set hp hlater ht, hwindow, h.once, hplaced⟩
      | ok pkt =>
          refine ⟨fun t ht => ?_, hwindow, h.once, hplaced⟩
          rcases List.mem_cons.mp ht with rfl | ht
          · refine ⟨_, List.getElem?_set_self (List.getElem?_eq_some_iff.mp hp).1, ?_, fun rx hrx => ?_⟩
            · rw [hlater.outSPI]
              exact encrypt_packet hpkt
            have hrx' : Esp.Complementary sa rx := hlater.symm.complementary (.refl rx) hrx
            obtain ⟨v, hv, hseq, hfinish⟩ := hrx'.verify_encrypt hpkt
            exact ⟨v, hv, hseq ▸ seq_ne_zero hpkt, hfinish⟩
          · exact h.sent_set hp hlater ht

/-- What the SA that was found for a packet makes of it is what its window makes of the
number, if the packet opens. -/
theorem Sound.delivery (h : x.Sound c w) {sa : Esp.SA} {raw : Bytes} (hp : x.client.heap[p]? = some sa)
    (hopens : ∀ v, sa.verify c raw = .ok v → ∃ inner, v.finish = .ok inner)
    (hdelivered : (∃ inner, (sa.decrypt c raw).1 = .ok inner ∧
        y.delivered = { sa := p, inner, pkt := raw } :: x.delivered) ∨
      (∃ e, (sa.decrypt c raw).1 = .error e) ∧ y.delivered = x.delivered) :
    (∀ q, q ≠ p → y.taken q = x.taken q) ∧
      Esp.Represents (Esp.installedSize w) (sa.decrypt c raw).2.replay (y.taken p) ∧
      (y.delivered.map fun t => (t.sa, number t.pkt)).Nodup := by
  cases hv : sa.verify c raw with
  | error e =>
      have hdec : sa.decrypt c raw = (.error e, sa) := by rw [Esp.SA.decrypt, hv]
      rw [hdec] at hdelivered ⊢
      rcases hdelivered with ⟨inner, hok, -⟩ | ⟨-, hdel⟩
      · cases hok
      · exact ⟨fun q _ => taken_congr hdel q, taken_congr hdel p ▸ h.window p sa hp, hdel ▸ h.once⟩
  | ok v =>
      obtain ⟨inner, hfinish⟩ := hopens v hv
      obtain ⟨w', hdec, hrep⟩ :=
        (h.window p sa hp).decrypt (Esp.installedSize_pos w) sa hv hfinish
      rw [hdec] at hdelivered ⊢
      by_cases hfresh : AntiReplay.Fresh (Esp.installedSize w) (x.taken p) v.seq.toNat
      · rw [AntiReplay.take, if_pos hfresh] at hrep
        simp only [if_pos hfresh] at hdelivered
        rcases hdelivered with ⟨inner', -, hdel⟩ | ⟨⟨e, he⟩, -⟩
        · refine ⟨fun q hq => ?_, ?_, ?_⟩
          · rw [taken_cons hdel, if_neg (Ne.symm hq)]
          · rw [taken_cons hdel, if_pos rfl, number_of_verify hv]
            exact hrep
          · rw [hdel, List.map_cons, List.nodup_cons]
            refine ⟨fun hmem => ?_, h.once⟩
            obtain ⟨t, ht, hkey⟩ := List.mem_map.mp hmem
            refine hfresh.2.1 (mem_taken.mpr ⟨t, ht, congrArg Prod.fst hkey, ?_⟩)
            rw [← number_of_verify hv]
            exact congrArg Prod.snd hkey
        · cases he
      · rw [AntiReplay.take, if_neg hfresh] at hrep
        simp only [if_neg hfresh] at hdelivered
        rcases hdelivered with ⟨inner', hok, -⟩ | ⟨-, hdel⟩
        · cases hok
        · exact ⟨fun q _ => taken_congr hdel q, taken_congr hdel p ▸ hrep, hdel ▸ h.once⟩

/-- A packet comes in that opens if it is authentic. -/
theorem Sound.receive (h : x.Sound c w) {reg : UInt32 → Option Ptr} {raw : Bytes} (now : Time)
    (hopens : ∀ p sa v, found reg raw = some p → x.client.heap[p]? = some sa → sa.verify c raw = .ok v →
      ∃ inner, v.finish = .ok inner) : (x.receive c reg raw now).Sound c w := by
  rcases receive_cases c reg raw now x with heq | ⟨p, sa, hfound, hp, hheap, hdelivered⟩
  · rw [heq]
    exact h
  have hlater : sa.Continues (sa.decrypt c raw).2 := (Esp.SA.Continues.refl sa).decrypt raw
  have hplen : p < x.client.heap.length := (List.getElem?_eq_some_iff.mp hp).1
  obtain ⟨hother, hwindow, honce⟩ :=
    h.delivery hp (fun v hv => hopens p sa v hfound hp hv) hdelivered
  constructor
  case sent =>
    intro t ht
    rw [hheap]
    exact h.sent_set hp hlater ht
  case window =>
    intro q sa₁ hq
    rw [hheap] at hq
    by_cases hpq : p = q
    · subst hpq
      rw [List.getElem?_set_self hplen] at hq
      cases hq
      exact hwindow
    · rw [List.getElem?_set_ne hpq] at hq
      rw [hother q (Ne.symm hpq)]
      exact h.window q sa₁ hq
  case once => exact honce
  case placed =>
    intro t ht
    rw [hheap, List.length_set]
    rcases hdelivered with ⟨inner, -, hdel⟩ | ⟨-, hdel⟩
    · rw [hdel] at ht
      rcases List.mem_cons.mp ht with rfl | ht
      · exact hplen
      · exact h.placed t ht
    · rw [hdel] at ht
      exact h.placed t ht

end

/-! ## Two clients -/

/-- What was delivered has been sent by the other client. -/
def Hears (x y : Post) : Prop :=
  ∀ t ∈ x.delivered, ∃ t' ∈ y.sent, t'.inner = t.inner ∧ t'.pkt = t.pkt ∧ Opposite x y t.sa t'.sa

section

variable {c : Crypto} {w : UInt32} {x x' y y' : Post}

theorem getElem?_origins {log log' : List Event} (h : log <:+ log') {p : Nat} {o : Origin}
    (hp : (origins log)[p]? = some o) : (origins log')[p]? = some o := by
  obtain ⟨rest, hrest⟩ := origins_suffix h
  rw [← hrest, List.getElem?_append_left (List.getElem?_eq_some_iff.mp hp).1, hp]

theorem Opposite.mono {p q : Ptr} (h : Opposite x y p q) (hx : x.log <:+ x'.log) (hy : y.log <:+ y'.log) :
    Opposite x' y' p q := by
  obtain ⟨o, ho, ho'⟩ := h
  exact ⟨o, getElem?_origins hx ho, getElem?_origins hy ho'⟩

theorem Hears.mono (h : Hears x y) (hdelivered : x'.delivered = x.delivered) (hx : x.log <:+ x'.log)
    (hsent : y.sent ⊆ y'.sent) (hy : y.log <:+ y'.log) : Hears x' y' := by
  intro t ht
  rw [hdelivered] at ht
  obtain ⟨t', ht', hinner, hpkt, hopposite⟩ := h t ht
  exact ⟨t', hsent ht', hinner, hpkt, hopposite.mono hx hy⟩

theorem Advance.log_suffix (h : Advance c w y x x') (hdp : x.client.session.s.dataPlane = true) :
    x.log <:+ x'.log := by
  cases h with
  | turn env input _ _ hstep _ => exact (driverStep_grows hdp hstep).1
  | fire | callback | prune | receive => exact List.suffix_rfl
  | send p rand inner =>
      rw [log, log, (send_frame c p rand inner x).1]

theorem Advance.sent_subset (h : Advance c w y x x') : x.sent ⊆ x'.sent := by
  cases h with
  | turn | fire | callback | prune | receive => exact List.Subset.refl _
  | send p rand inner => exact (send_frame c p rand inner x).2.2.2

theorem Advance.stocked {child : ChildSA} (h : Advance c w y x x')
    (hdp : x.client.session.s.dataPlane = true) (hx : Stocked w child x.log x.client.heap) :
    Stocked w child x'.log x'.client.heap := by
  cases h with
  | turn env input _ _ hstep hus => exact hx.turn hdp hstep hus
  | fire | callback | prune => exact hx
  | send p rand inner =>
      unfold Post.send
      split
      · exact hx
      · rename_i sa hp
        have hset := hx.set hp fun new hnew => hnew.encrypt (c := c) rand inner
        dsimp only
        split <;> exact hset
  | receive reg raw now _ =>
      rcases receive_cases c reg raw now x with heq | ⟨p, sa, -, hp, hheap, -⟩
      · rw [heq]
        exact hx
      · rw [hheap]
        exact hx.set hp fun new hnew => hnew.decrypt raw

end

end Post

section

variable {c : Crypto} {w w' : UInt32} {child child' : ChildSA} {a₀ b₀ a a' b : Post}

theorem Halves.symm (h : Halves child child') : Halves child' child :=
  ⟨h.suite.symm, h.inb.symm, h.out.symm, h.encr'.symm, h.integ'.symm, h.encr.symm, h.integ.symm⟩

/-- The installs of two sessions are matched, and each exchange gave one at most. -/
structure Matched (log P : List Event) : Prop where
  left : InstallsMatched log P
  right : InstallsMatched P log
  leftOnce : ∀ part, ((installs part log).map Prod.fst).Nodup
  rightOnce : ∀ part, ((installs part P).map Prod.fst).Nodup

theorem Matched.symm {log P : List Event} (h : Matched log P) : Matched P log :=
  ⟨h.right, h.left, h.rightOnce, h.leftOnce⟩

/-- What holds of two clients in a run. -/
structure Joined (c : Crypto) (w w' : UInt32) (child child' : ChildSA) (a b : Post) : Prop where
  leftStocked : Stocked w child a.log a.client.heap
  rightStocked : Stocked w' child' b.log b.client.heap
  leftSound : a.Sound c w
  rightSound : b.Sound c w'
  leftHears : a.Hears b
  rightHears : b.Hears a

theorem Joined.symm (h : Joined c w w' child child' a b) : Joined c w' w child' child b a :=
  ⟨h.rightStocked, h.leftStocked, h.rightSound, h.leftSound, h.rightHears, h.leftHears⟩

/-- What was sent under the counterpart of an SA opens there. -/
theorem Joined.opens (h : Joined c w w' child child' a b) (hmatched : Matched a.log b.log)
    (hchildren : Halves child child') {p : Ptr} {sa : Esp.SA} {t : Carried}
    (hp : a.client.heap[p]? = some sa) (ht : t ∈ b.sent) (hopposite : a.Opposite b p t.sa) :
    IsPacket sa.inSPI t.pkt ∧ t.Opens c sa := by
  obtain ⟨o, ho, ho'⟩ := hopposite
  obtain ⟨sb, hsb, hpacket, hopens⟩ := h.rightSound.sent t ht
  obtain ⟨o₁, ho₁, hmade⟩ := h.leftStocked.made p sa hp
  obtain ⟨o₂, ho₂, hmade'⟩ := h.rightStocked.made t.sa sb hsb
  cases ho.symm.trans ho₁
  cases ho'.symm.trans ho₂
  have hmade₁ : Made w child a.log sa o.mirror.mirror := by
    rw [Origin.mirror_mirror]
    exact hmade
  have hfeeds := hmade'.complementary hchildren.symm hmatched.right hmatched.left hmatched.rightOnce
    hmatched.leftOnce hmade₁
  exact ⟨hfeeds.1 ▸ hpacket, hopens sa hfeeds⟩

/-- An authentic packet was sent under the counterpart of the SA that was found for it, and
opens to what was sent. -/
theorem Joined.receive (h : Joined c w w' child child' a b) (hmatched : Matched a.log b.log)
    (hchildren : Halves child child') {reg : UInt32 → Option Ptr} {raw : Bytes} (now : Time)
    (hgenuine : ∀ p sa v, Post.found reg raw = some p → a.client.heap[p]? = some sa →
      sa.verify c raw = .ok v → ∃ t ∈ b.sent, t.pkt = raw ∧ a.Opposite b p t.sa) :
    (a.receive c reg raw now).Sound c w ∧ (a.receive c reg raw now).Hears b := by
  have hopens (p : Ptr) (sa : Esp.SA) (v : Esp.Verified) (hfound : Post.found reg raw = some p)
      (hp : a.client.heap[p]? = some sa) (hv : sa.verify c raw = .ok v) :
      ∃ t ∈ b.sent, t.pkt = raw ∧ a.Opposite b p t.sa ∧ v.finish = .ok t.inner := by
    obtain ⟨t, ht, rfl, hopposite⟩ := hgenuine p sa v hfound hp hv
    obtain ⟨-, v', hv', -, hfinish⟩ := h.opens hmatched hchildren hp ht hopposite
    cases hv.symm.trans hv'
    exact ⟨t, ht, rfl, hopposite, hfinish⟩
  constructor
  · refine h.leftSound.receive now fun p sa v hfound hp hv => ?_
    obtain ⟨t, -, -, -, hfinish⟩ := hopens p sa v hfound hp hv
    exact ⟨t.inner, hfinish⟩
  intro t ht
  rcases Post.receive_cases c reg raw now a with heq | ⟨p, sa, hfound, hp, -, hdelivered⟩
  · rw [heq] at ht
    exact h.leftHears t ht
  rcases hdelivered with ⟨inner, hdec, hdel⟩ | ⟨-, hdel⟩
  · rw [hdel] at ht
    rcases List.mem_cons.mp ht with rfl | ht
    · obtain ⟨v, hv, hinner⟩ := Esp.SA.decrypt_eq_ok hdec
      obtain ⟨t', ht', hpkt, hopposite, hfinish⟩ := hopens p sa v hfound hp hv
      exact ⟨t', ht', Except.ok.inj (hfinish.symm.trans hinner), hpkt, hopposite⟩
    · exact h.leftHears t ht
  · rw [hdel] at ht
    exact h.leftHears t ht

theorem Joined.advance (h : Joined c w w' child child' a b) (hmatched : Matched a.log b.log)
    (hchildren : Halves child child') (hdp : a.client.session.s.dataPlane = true)
    (hstep : Post.Advance c w b a a') : Joined c w w' child child' a' b := by
  have hlog := hstep.log_suffix hdp
  have hstocked := hstep.stocked hdp h.leftStocked
  have hsent : b.Hears a' := h.rightHears.mono rfl List.suffix_rfl hstep.sent_subset hlog
  suffices hleft : a'.Sound c w ∧ a'.Hears b from
    ⟨hstocked, h.rightStocked, hleft.1, h.rightSound, hleft.2, hsent⟩
  have hquiet (hdelivered : a'.delivered = a.delivered) : a'.Hears b :=
    h.leftHears.mono hdelivered hlog (List.Subset.refl _) List.suffix_rfl
  cases hstep with
  | turn env input _ _ hstep hus =>
      obtain ⟨new, hnew, hreplay⟩ := heap_foldr_installChildSA w _ a.client
      exact ⟨h.leftSound.append rfl rfl hnew hreplay, hquiet rfl⟩
  | fire | callback | prune =>
      exact ⟨h.leftSound.append rfl rfl (List.append_nil _).symm nofun, hquiet rfl⟩
  | send p rand inner =>
      exact ⟨h.leftSound.send p rand inner, hquiet (Post.send_frame c p rand inner a).2.2.1⟩
  | receive reg raw now hgenuine => exact h.receive hmatched hchildren now hgenuine

/-- The sessions of two clients run as two endpoints. -/
theorem Traffic.joint (h : Traffic c w w' a₀ b₀ a b) (ha : a₀.client.stopped = false)
    (hb : b₀.client.stopped = false) : JointRun c a₀.client.session b₀.client.session a.client.session
      a.client.stopped b.client.session b.client.stopped := by
  induction h with
  | refl =>
      rw [ha, hb]
      exact .refl
  | left h hstep ih =>
      cases hstep with
      | turn env input hgoing hgenuine hstep hus =>
          rw [hgoing] at ih
          exact ih.left env input hgenuine hstep
      | fire | callback | prune | receive => exact ih
      | send p rand inner =>
          obtain ⟨hsession, hstopped, -⟩ := Post.send_frame c p rand inner _
          rw [hsession, hstopped]
          exact ih
  | right h hstep ih =>
      cases hstep with
      | turn env input hgoing hgenuine hstep hus =>
          rw [hgoing] at ih
          exact ih.right env input hgenuine hstep
      | fire | callback | prune | receive => exact ih
      | send p rand inner =>
          obtain ⟨hsession, hstopped, -⟩ := Post.send_frame c p rand inner _
          rw [hsession, hstopped]
          exact ih

theorem matched_of_allied {d e : Drive} {ia ib : UInt32} (h : Allied c ia ib d e) (hfew : FewRequests d.log)
    (hfew' : FewRequests e.log) : Matched d.log e.log :=
  ⟨h.paired.left.installed, h.paired.right.installed, h.left.installs_nodup hfew,
    h.right.installs_nodup hfew'⟩

/-- A client that has just started its data plane. -/
structure Post.Starts (w : UInt32) (child : ChildSA) (x : Post) : Prop where
  session : Session.Starts x.client.session
  child : x.client.session.s.child = some child
  client : Client.startDataPlane w x.client.session = .ok x.client
  sent : x.sent = []
  delivered : x.delivered = []

theorem Post.Starts.sound {x : Post} (h : x.Starts w child) :
    Stocked w child x.log x.client.heap ∧ x.Sound c w ∧ x.client.stopped = false := by
  have hcl := h.client
  simp only [Client.startDataPlane, h.child, bind_eq_ok, pure_eq_ok, Except.ok.injEq] at hcl
  obtain ⟨sa, hsa, hcl⟩ := hcl
  have hheap : x.client.heap = [sa] := congrArg Client.heap hcl.symm
  have horigins : origins x.log = [.first] := by
    obtain ⟨ctx, hlog, -⟩ := h.session.fresh.log
    have hlog' : x.log = [.established ctx] := hlog
    rw [hlog']
    rfl
  have hreplay : sa.replay = Esp.newReplayWindow w := by
    simp only [espSAFromChild, Esp.newSA, bind_eq_ok, pure_eq_ok, Except.ok.injEq] at hsa
    obtain ⟨_, _, rfl⟩ := hsa
    rfl
  have hfirst (p : Nat) (sa' : Esp.SA) (hp : x.client.heap[p]? = some sa') : p = 0 ∧ sa' = sa := by
    rw [hheap] at hp
    cases p with
    | zero => exact ⟨rfl, (Option.some.inj hp).symm⟩
    | succ p => cases hp
  refine ⟨⟨by rw [hheap, horigins]; rfl, fun p sa' hp => ?_⟩, ⟨?_, fun p sa' hp => ?_, ?_, ?_⟩,
    congrArg Client.stopped hcl.symm⟩
  · obtain ⟨rfl, rfl⟩ := hfirst p sa' hp
    exact ⟨.first, by rw [horigins]; rfl, sa', hsa, .refl sa'⟩
  · rw [h.sent]
    intro t ht
    cases ht
  · obtain ⟨rfl, rfl⟩ := hfirst p sa' hp
    have hnone : x.taken 0 = ∅ := by rw [Post.taken, h.delivered]; rfl
    rw [hnone, hreplay]
    exact Esp.represents_newReplayWindow w
  · rw [h.delivered]
    exact List.nodup_nil
  · rw [h.delivered]
    intro t ht
    cases ht

/-- Two clients that are about to run, at the two ends of one IKE SA and one Child SA. -/
structure Partners (w w' : UInt32) (child child' : ChildSA) (a b : Post) : Prop where
  left : a.Starts w child
  right : b.Starts w' child'
  sa : (a.client.session.view {}).ike.Mirrors (b.client.session.view {}).ike
  halves : Halves child child'

theorem Partners.allied (h : Partners w w' child child' a b) :
    Allied c (a.client.session.view {}).messageID (b.client.session.view {}).messageID a.client.session
      b.client.session := by
  have hfresh := h.left.session.fresh
  have hfresh' := h.right.session.fresh
  exact ⟨hfresh.orderly, hfresh'.orderly, hfresh.dataPlane, hfresh'.dataPlane, hfresh.paired hfresh' h.sa,
    hfresh.wellSpoken, hfresh'.wellSpoken⟩

theorem Traffic.joined (h : Traffic c w w' a₀ b₀ a b) (hp : Partners w w' child child' a₀ b₀)
    (hfew : FewRequests a.log) (hfew' : FewRequests b.log) :
    Joined c w w' child child' a b ∧ Matched a.log b.log := by
  obtain ⟨hstocked, hsound, hgoing⟩ := hp.left.sound (c := c)
  obtain ⟨hstocked', hsound', hgoing'⟩ := hp.right.sound (c := c)
  have hallied := hp.allied (c := c)
  have hmatched {a b : Post} (h : Traffic c w w' a₀ b₀ a b) (hfew : FewRequests a.log)
      (hfew' : FewRequests b.log) : Matched a.log b.log :=
    matched_of_allied ((h.joint hgoing hgoing').allied hallied hfew hfew') hfew hfew'
  refine ⟨?_, hmatched h hfew hfew'⟩
  induction h with
  | refl =>
      refine ⟨hstocked, hstocked', hsound, hsound', ?_, ?_⟩
      · rw [Post.Hears, hp.left.delivered]
        nofun
      · rw [Post.Hears, hp.right.delivered]
        nofun
  | left h hstep ih =>
      have hplane := ((h.joint hgoing hgoing').planes hallied.leftPlane hallied.rightPlane).1
      have hbefore := hfew.suffix (hstep.log_suffix hplane)
      exact (ih hbefore hfew').advance (hmatched h hbefore hfew') hp.halves hplane hstep
  | right h hstep ih =>
      have hplane := ((h.joint hgoing hgoing').planes hallied.leftPlane hallied.rightPlane).2
      have hbefore := hfew'.suffix (hstep.log_suffix hplane)
      exact ((ih hfew hbefore).symm.advance (hmatched h hfew hbefore).symm hp.halves.symm hplane hstep).symm

/-- What was delivered has been sent, and as often at least. -/
theorem Joined.subperm (h : Joined c w w' child child' a b) (hmatched : Matched a.log b.log) :
    (a.delivered.map Carried.inner).Subperm (b.sent.map Carried.inner) := by
  let came (t : Carried) : Option Origin × Bytes × Bytes :=
    (((origins a.log)[t.sa]?).map Origin.mirror, t.inner, t.pkt)
  let went (t : Carried) : Option Origin × Bytes × Bytes := ((origins b.log)[t.sa]?, t.inner, t.pkt)
  have hsubset : a.delivered.map came ⊆ b.sent.map went := by
    intro x hx
    obtain ⟨t, ht, rfl⟩ := List.mem_map.mp hx
    obtain ⟨t', ht', hinner, hpkt, o, ho, ho'⟩ := h.leftHears t ht
    refine List.mem_map.mpr ⟨t', ht', ?_⟩
    simp only [came, went, hinner, hpkt, ho, ho', Option.map_some]
  have hnodup : (a.delivered.map came).Nodup := by
    have honce := h.leftSound.once
    rw [List.Nodup, List.pairwise_map] at honce ⊢
    refine honce.imp_of_mem fun {t t'} ht ht' hne heq => hne ?_
    have hsa : t.sa = t'.sa := by
      have hlt := h.leftStocked.length ▸ h.leftSound.placed t ht
      have hlt' := h.leftStocked.length ▸ h.leftSound.placed t' ht'
      have horigin := congrArg Prod.fst heq
      simp only [came, List.getElem?_eq_getElem hlt, List.getElem?_eq_getElem hlt', Option.map_some,
        Option.some.injEq] at horigin
      have hback := congrArg Origin.mirror horigin
      simp only [Origin.mirror_mirror] at hback
      exact (nodup_origins hmatched.leftOnce).getElem_inj_iff.mp hback
    have hpkt : t.pkt = t'.pkt := congrArg (fun x => x.2.2) heq
    rw [hsa, hpkt]
  obtain ⟨l, hperm, hsub⟩ := List.subperm_of_subset hnodup hsubset
  have hinner : a.delivered.map Carried.inner = (a.delivered.map came).map fun x => x.2.1 := by
    rw [List.map_map]
    rfl
  have hinner' : b.sent.map Carried.inner = (b.sent.map went).map fun x => x.2.1 := by
    rw [List.map_map]
    rfl
  rw [hinner, hinner']
  exact ⟨l.map fun x => x.2.1, hperm.map _, hsub.map _⟩

/-- Whatever the network does with the packets, and however often either client replaces
its Child SAs and IKE SAs in the meantime: each datagram that comes out of the tunnel at one
end went in at the other, and does not come out oftener than it went in. -/
theorem datagrams_delivered_once (hp : Partners w w' child child' a₀ b₀)
    (h : Traffic c w w' a₀ b₀ a b) (hfew : FewRequests a.log) (hfew' : FewRequests b.log) :
    (b.delivered.map Carried.inner).Subperm (a.sent.map Carried.inner) ∧
      (a.delivered.map Carried.inner).Subperm (b.sent.map Carried.inner) := by
  obtain ⟨hjoined, hmatched⟩ := h.joined hp hfew hfew'
  exact ⟨hjoined.symm.subperm hmatched.symm, hjoined.subperm hmatched⟩

/-! ## Packets that arrive in time -/

theorem mem_origins_of_mem_installs {part : Role} {key : RequestKey} {u : ChildSAUpdate} {log : List Event}
    (h : (key, u) ∈ installs part log) : .exchange part key ∈ origins log := by
  induction log with
  | nil => cases h
  | cons e log ih =>
      cases e with
      | install role slot msgID v =>
          rw [origins, List.mem_append]
          rw [installs] at h
          split at h
          · rename_i hrole
            rcases List.mem_cons.mp h with h | h
            · cases h
              exact .inr (by rw [hrole]; exact List.mem_singleton_self _)
            · exact .inl (ih h)
          · exact .inl (ih h)
      | _ => exact ih h

/-- The first Child SA, and any that a client got as the initiator of an exchange, has its
counterpart at the other end. -/
theorem Matched.opposite (h : Matched a.log b.log) {p : Ptr} {o : Origin}
    (ho : (origins a.log)[p]? = some o) (hpart : ∀ key, o ≠ .exchange .responder key) :
    ∃ q, b.Opposite a q p := by
  have hmem : o.mirror ∈ origins b.log := by
    cases o with
    | first => exact (origins_suffix (List.nil_suffix)).subset List.mem_cons_self
    | exchange part key =>
        cases part with
        | initiator =>
            obtain ⟨g, msgID⟩ := key
            obtain ⟨u, hu⟩ := mem_installs_of_mem_origins (List.mem_of_getElem? ho)
            obtain ⟨v, hv, -⟩ := h.left g msgID u hu
            exact mem_origins_of_mem_installs hv
        | responder => exact absurd rfl (hpart key)
  obtain ⟨q, hq⟩ := List.mem_iff_getElem?.mp hmem
  exact ⟨q, o.mirror, hq, by rw [Origin.mirror_mirror]; exact ho⟩

/-- The packet has not been delivered under the SA, and no packet with a number too far
above its own has. -/
def Post.InTime (W : Nat) (x : Post) (q : Ptr) (pkt : Bytes) : Prop :=
  ∀ t ∈ x.delivered, t.sa = q →
    Post.number t.pkt ≠ Post.number pkt ∧ Post.number t.pkt < Post.number pkt + W

theorem Post.InTime.fresh {W : Nat} {x : Post} {q : Ptr} {pkt : Bytes} (h : x.InTime W q pkt)
    (hpos : Post.number pkt ≠ 0) (hW : 0 < W) : AntiReplay.Fresh W (x.taken q) (Post.number pkt) := by
  refine ⟨hpos, fun hmem => ?_, ?_⟩
  · obtain ⟨t, ht, hsa, hnumber⟩ := Post.mem_taken.mp hmem
    exact (h t ht hsa).1 hnumber
  · by_cases hzero : AntiReplay.highest (x.taken q) = 0
    · left
      omega
    · obtain ⟨t, ht, hsa, hnumber⟩ := Post.mem_taken.mp (AntiReplay.highest_mem hzero)
      have hlt := (h t ht hsa).2
      right
      omega

/-- A packet that was sent under the first Child SA, or under one that the sender got as the
initiator of an exchange, finds the SA it is for at the other end: the responder has it
before the initiator.  Whichever end the exchange came from, a packet whose SA is registered
at the other end and that arrives in time is delivered as it was sent. -/
theorem datagram_delivered_in_time (hp : Partners w w' child child' a₀ b₀)
    (h : Traffic c w w' a₀ b₀ a b) (hfew : FewRequests a.log) (hfew' : FewRequests b.log) {t : Carried}
    (ht : t ∈ a.sent) :
    ((∀ key, (origins a.log)[t.sa]? ≠ some (.exchange .responder key)) → ∃ q, b.Opposite a q t.sa) ∧
    ∀ q sa, b.Opposite a q t.sa → b.client.heap[q]? = some sa → sa.inSPI ≠ 0 →
      b.client.lookupInbound sa.inSPI = some q → b.InTime (Esp.installedSize w') q t.pkt →
      ∀ now, (b.receive c b.client.inbound t.pkt now).delivered =
        { sa := q, inner := t.inner, pkt := t.pkt } :: b.delivered := by
  obtain ⟨hjoined, hmatched⟩ := h.joined hp hfew hfew'
  constructor
  · intro hpart
    obtain ⟨sa, hsa, -⟩ := hjoined.leftSound.sent t ht
    obtain ⟨o, ho, -⟩ := hjoined.leftStocked.made t.sa sa hsa
    refine hmatched.opposite ho fun key hkey => hpart key ?_
    rw [ho, hkey]
  intro q sa hopposite hq hspi hregistered htime now
  obtain ⟨hpacket, v, hv, hseq, hfinish⟩ :=
    hjoined.symm.opens hmatched.symm hp.halves.symm hq ht hopposite
  have hW := Esp.installedSize_pos w'
  obtain ⟨window, hdec, -⟩ := (hjoined.rightSound.window q sa hq).decrypt hW sa hv hfinish
  have hnumber := Post.number_of_verify hv
  have hfresh := htime.fresh (hnumber ▸ fun hzero => hseq (UInt32.toNat_inj.mp hzero)) hW
  rw [hnumber] at hfresh
  rw [if_pos hfresh] at hdec
  exact Post.receive_packet hpacket hspi hregistered hq hdec

end

/-! ## A datagram of a sample client -/

/-- The Child SA of the sample clients, as each of them records it. -/
def sampleHalf (role : Role) : ChildSA :=
  let out := List.replicate 36 (if role = .initiator then 1 else 2)
  let inb := List.replicate 36 (if role = .initiator then 2 else 1)
  { initiatorSPI := if role = .initiator then 0x11 else 0x22
    responderSPI := if role = .initiator then 0x22 else 0x11
    suite := .aesGCM256, keys := { encrIR := out, integIR := [], encrRI := inb, integRI := [] } }

def sampleHalfStart (role : Role) : Drive :=
  (driverStart (sampleEnv 1) { s := { sampleSession role with child := some (sampleHalf role) } }).2

/-- The sample client has started its data plane. -/
def samplePost (role : Role) : Post where
  client :=
    { session := sampleHalfStart role
      heap := (espSAFromChild 64 (sampleHalf role)).toOption.toList
      inbound := Function.update (fun _ => none) (sampleHalf role).initiatorSPI (some 0)
      tun := 0 }

theorem espSA_sampleHalf (role : Role) : ∃ sa, espSAFromChild 64 (sampleHalf role) = .ok sa ∧
    sa.inSPI = (sampleHalf role).initiatorSPI := by
  have hkeyed : ChildKeyed (sampleHalf role) := by
    refine ⟨_, List.mem_cons_self, rfl, ?_⟩
    cases role <;> decide
  obtain ⟨sa, hsa, -, hin⟩ := hkeyed.espSAFromChild 64
  exact ⟨sa, hsa, hin⟩

theorem starts_samplePost (role : Role) : (samplePost role).Starts 64 (sampleHalf role) := by
  have hestablished : Established { sampleSession role with child := some (sampleHalf role) } := by
    constructor <;> rfl
  obtain ⟨sa, hsa, -⟩ := espSA_sampleHalf role
  have hchild : (sampleHalfStart role).s.child = some (sampleHalf role) := rfl
  refine ⟨⟨_, _, hestablished, rfl⟩, hchild, ?_, rfl, rfl⟩
  simp only [samplePost, Client.startDataPlane, hchild, hsa, ok_bind, pure_eq_ok, Client.resetInbound]
  rfl

theorem partners_sample : Partners 64 64 (sampleHalf .initiator) (sampleHalf .responder)
    (samplePost .initiator) (samplePost .responder) where
  left := starts_samplePost .initiator
  right := starts_samplePost .responder
  sa := by
    simp only [samplePost, sampleHalfStart, ike_driverStart]
    refine IkeCtx.Mirrors.keys ⟨?_, rfl, rfl⟩
    simp only [sampleSession, derivedTogether_sampleSA.mirror]
  halves := by constructor <;> rfl

/-- The initiator sends a datagram. -/
def sampleSending : Post := (samplePost .initiator).send Crypto.sample 0 none [0x45]

def samplePacket : Bytes := (sampleSending.sent.map Carried.pkt).flatten

/-- The responder gets the packet. -/
def sampleReceived : Post :=
  (samplePost .responder).receive Crypto.sample (samplePost .responder).client.inbound samplePacket 2

/-- And once more. -/
def sampleReceiving : Post :=
  sampleReceived.receive Crypto.sample sampleReceived.client.inbound samplePacket 3

theorem sampleSending_sent :
    sampleSending.sent = [{ sa := 0, inner := [0x45], pkt := samplePacket }] := by
  decide +kernel

theorem traffic_sending : Traffic Crypto.sample 64 64 (samplePost .initiator) (samplePost .responder)
    sampleSending (samplePost .responder) :=
  .left .refl (.send 0 none [0x45])

theorem origins_samples :
    origins (samplePost .responder).log = [.first] ∧ origins sampleSending.log = [.first] := by
  decide +kernel

theorem traffic_receiving : Traffic Crypto.sample 64 64 (samplePost .initiator) (samplePost .responder)
    sampleSending sampleReceiving := by
  have hgenuine (x : Post) (hx : x.log = (samplePost .responder).log) (hlen : x.client.heap.length = 1)
      (p : Ptr) (sa : Esp.SA) (hp : x.client.heap[p]? = some sa) :
      ∃ t ∈ sampleSending.sent, t.pkt = samplePacket ∧ x.Opposite sampleSending p t.sa := by
    refine ⟨_, by rw [sampleSending_sent]; exact List.mem_singleton_self _, rfl, .first, ?_, ?_⟩
    · have hlt := (List.getElem?_eq_some_iff.mp hp).1
      rw [hlen, Nat.lt_one_iff] at hlt
      rw [hx, origins_samples.1, hlt]
      rfl
    · rw [origins_samples.2]
      rfl
  have hlen : (samplePost .responder).client.heap.length = 1 ∧ sampleReceived.client.heap.length = 1 := by
    decide +kernel
  have hreceived : Traffic Crypto.sample 64 64 (samplePost .initiator) (samplePost .responder)
      sampleSending sampleReceived :=
    .right traffic_sending (.receive _ samplePacket 2 fun p sa v _ hp _ =>
      hgenuine (samplePost .responder) rfl hlen.1 p sa hp)
  exact .right hreceived (.receive _ samplePacket 3 fun p sa v _ hp _ =>
    hgenuine sampleReceived (Post.log_receive ..) hlen.2 p sa hp)

theorem fewRequests_samples : FewRequests sampleSending.log ∧ FewRequests (samplePost .responder).log :=
  ⟨fewRequests_of_length (by decide +kernel), fewRequests_of_length (by decide +kernel)⟩

/-- A packet that comes twice is delivered once. -/
theorem datagrams_delivered_once_sample : sampleReceiving.delivered.map Carried.inner = [[0x45]] ∧
    (sampleReceiving.delivered.map Carried.inner).Subperm (sampleSending.sent.map Carried.inner) := by
  have hfew : FewRequests sampleReceiving.log := by
    rw [sampleReceiving, Post.log_receive, sampleReceived, Post.log_receive]
    exact fewRequests_samples.2
  exact ⟨by decide +kernel, (datagrams_delivered_once partners_sample traffic_receiving
    fewRequests_samples.1 hfew).1⟩

/-- The first packet of the sample client arrives. -/
theorem datagram_delivered_in_time_sample :
    sampleReceived.delivered = [{ sa := 0, inner := [0x45], pkt := samplePacket }] := by
  obtain ⟨sa, hsa, hin⟩ := espSA_sampleHalf .responder
  have hheap : (samplePost .responder).client.heap = [sa] := by
    simp only [samplePost, hsa]
    rfl
  have hopposite : (samplePost .responder).Opposite sampleSending 0 0 :=
    ⟨.first, by rw [origins_samples.1]; rfl, by rw [origins_samples.2]; rfl⟩
  have hregistered : (samplePost .responder).client.lookupInbound sa.inSPI = some 0 := by
    rw [hin]
    rfl
  have hsent : { sa := 0, inner := [0x45], pkt := samplePacket } ∈ sampleSending.sent := by
    rw [sampleSending_sent]
    exact List.mem_singleton_self _
  have htime : (samplePost .responder).InTime (Esp.installedSize 64) 0 samplePacket :=
    fun t ht => by cases ht
  have hspi : sa.inSPI ≠ 0 := by rw [hin]; decide
  exact (datagram_delivered_in_time partners_sample traffic_sending fewRequests_samples.1
    fewRequests_samples.2 hsent).2 0 sa hopposite (by rw [hheap]; rfl) hspi hregistered htime 2

end GoIpsec.Ipsec
