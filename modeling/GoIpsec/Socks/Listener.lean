import GoIpsec.Socks.Relay

/-!
# The listener

The loop that accepts connections, the goroutine that closes the listener when the context
is cancelled, and one goroutine for each connection.  A connection waits for a slot before
its goroutine is started, if the number of slots is limited.

The slots bound the handlers and never hold one up at its end; no connection that was
accepted is lost, handled twice, or left open.
-/

namespace GoIpsec.Socks

/-- Where the accept loop is, with the connection it has in hand. -/
inductive AcceptPc where
  | accepting
  /-- Waits for a slot. -/
  | admitting (conn : Nat)
  /-- Is about to start the handler. -/
  | starting (conn : Nat)
  | returned (err : Option String)
deriving Repr, DecidableEq

def AcceptPc.inHand : AcceptPc → List Nat
  | .admitting conn | .starting conn => [conn]
  | _ => []

/-- The connections are numbered as they come. -/
structure Listener where
  pc : AcceptPc := .accepting
  cancelled : Bool := false
  isOpen : Bool := true
  accepted : Nat := 0
  /-- The tokens in the semaphore. -/
  sem : Nat := 0
  /-- The connections that are being handled. -/
  running : List Nat := []
  /-- The handlers that are through, and have yet to take their token back. -/
  releasing : Nat := 0
  closed : List Nat := []
deriving Repr, DecidableEq

namespace Listener

inductive Step (maxConns : Int) : Listener → Listener → Prop
  | cancel {l : Listener} : Step maxConns l { l with cancelled := true }
  | shut {l : Listener} (h : l.cancelled = true) : Step maxConns l { l with isOpen := false }
  | accept {l : Listener} (hpc : l.pc = .accepting) (hopen : l.isOpen = true) :
      Step maxConns l
        { l with
          pc := if 0 < maxConns then .admitting l.accepted else .starting l.accepted
          accepted := l.accepted + 1 }
  /-- An error of the listener.  It is closed on the way out. -/
  | fail {l : Listener} (err : String) (hpc : l.pc = .accepting) :
      Step maxConns l
        { l with
          pc := .returned (if l.cancelled then none else some ("socks accept: " ++ err))
          isOpen := false }
  | acquire {l : Listener} {conn : Nat} (hpc : l.pc = .admitting conn) (hfree : (l.sem : Int) < maxConns) :
      Step maxConns l { l with pc := .starting conn, sem := l.sem + 1 }
  | refuse {l : Listener} {conn : Nat} (hpc : l.pc = .admitting conn) (hcancelled : l.cancelled = true) :
      Step maxConns l { l with pc := .returned none, isOpen := false, closed := conn :: l.closed }
  | start {l : Listener} {conn : Nat} (hpc : l.pc = .starting conn) :
      Step maxConns l { l with pc := .accepting, running := conn :: l.running }
  /-- The handler returns, and has closed its connection. -/
  | finish {l : Listener} {conn : Nat} (hconn : conn ∈ l.running) :
      Step maxConns l
        { l with
          running := l.running.erase conn
          releasing := if 0 < maxConns then l.releasing + 1 else l.releasing
          closed := conn :: l.closed }
  /-- The handler takes its token back.  It would wait for one if there were none. -/
  | release {l : Listener} (hreleasing : 0 < l.releasing) (hsem : 0 < l.sem) :
      Step maxConns l { l with releasing := l.releasing - 1, sem := l.sem - 1 }

/-- The states of the runs from a given one. -/
def Steps (maxConns : Int) : Listener → Listener → Prop := Relation.ReflTransGen (Step maxConns)

/-- The goroutines that handle a connection, or have handled one. -/
def handlers (l : Listener) : Nat := l.running.length + l.releasing

/-- A token for every handler, and one for the handler that is about to start. -/
def tokens (l : Listener) : Nat :=
  l.handlers + match l.pc with
    | .starting _ => 1
    | _ => 0

structure Sound (maxConns : Int) (l : Listener) : Prop where
  places : (List.range l.accepted).Perm (l.pc.inHand ++ l.running ++ l.closed)
  tokens : 0 < maxConns → l.sem = l.tokens
  slots : 0 < maxConns → (l.sem : Int) ≤ maxConns
  returned : ∀ err, l.pc = .returned err → l.isOpen = false ∧ (err = none → l.cancelled = true)

section

variable {maxConns : Int} {l l' : Listener}

theorem sound_start : Sound maxConns {} where
  places := .refl _
  tokens _ := rfl
  slots h := h.le
  returned _ h := by cases h

theorem Sound.step (h : l.Sound maxConns) (hstep : Step maxConns l l') : l'.Sound maxConns := by
  have hplaces := h.places
  have htokens := h.tokens
  have hslots := h.slots
  simp only [Listener.tokens, handlers] at htokens
  cases hstep with
  | cancel =>
      exact ⟨h.places, h.tokens, h.slots, fun err hpc => ⟨(h.returned err hpc).1, fun _ => rfl⟩⟩
  | shut _ => exact ⟨h.places, h.tokens, h.slots, fun err hpc => ⟨rfl, (h.returned err hpc).2⟩⟩
  | accept hpc =>
      simp only [hpc, AcceptPc.inHand, List.nil_append] at hplaces htokens
      have hall : (List.range (l.accepted + 1)).Perm ([l.accepted] ++ l.running ++ l.closed) := by
        rw [List.range_succ]
        exact List.perm_append_comm.trans (hplaces.cons _)
      by_cases hmax : 0 < maxConns
      · rw [if_pos hmax]
        exact ⟨hall, htokens, h.slots, nofun⟩
      · rw [if_neg hmax]
        exact ⟨hall, fun h => absurd h hmax, fun h => absurd h hmax, nofun⟩
  | fail err hpc =>
      simp only [hpc, AcceptPc.inHand, List.nil_append] at hplaces htokens
      refine ⟨hplaces, htokens, h.slots, fun err hpc' => ⟨rfl, fun hnone => ?_⟩⟩
      cases hpc'
      by_contra hnot
      simp [hnot] at hnone
  | acquire hpc hfree =>
      simp only [hpc, AcceptPc.inHand] at hplaces htokens
      refine ⟨hplaces, fun hmax => ?_, fun _ => ?_, nofun⟩
      · simp only [Listener.tokens, handlers, htokens hmax]
      · simp only
        omega
  | refuse hpc hcancelled =>
      simp only [hpc, AcceptPc.inHand] at hplaces htokens
      refine ⟨hplaces.trans ?_, htokens, h.slots, fun err hpc' => ⟨rfl, fun _ => hcancelled⟩⟩
      exact List.perm_middle.symm
  | start hpc =>
      simp only [hpc, AcceptPc.inHand] at hplaces htokens
      refine ⟨hplaces, fun hmax => ?_, h.slots, nofun⟩
      simp only [Listener.tokens, handlers, htokens hmax, List.length_cons]
      omega
  | @finish conn hconn =>
      refine ⟨hplaces.trans ?_, fun hmax => ?_, h.slots, h.returned⟩
      · calc (l.pc.inHand ++ l.running ++ l.closed).Perm (l.pc.inHand ++ (conn :: l.running.erase conn) ++ l.closed) :=
              ((List.perm_cons_erase hconn).append_left _).append_right _
          List.Perm _ (conn :: (l.pc.inHand ++ l.running.erase conn) ++ l.closed) := List.perm_middle.append_right _
          List.Perm _ (l.pc.inHand ++ l.running.erase conn ++ conn :: l.closed) := List.perm_middle.symm
      · have hlength := List.length_erase_of_mem hconn
        have hpos := List.length_pos_of_mem hconn
        simp only [Listener.tokens, handlers, htokens hmax, if_pos hmax, hlength]
        omega
  | release hreleasing hsem =>
      refine ⟨hplaces, fun hmax => ?_, fun hmax => ?_, h.returned⟩
      · simp only [Listener.tokens, handlers, htokens hmax]
        omega
      · have := hslots hmax
        simp only
        omega

theorem Sound.steps (h : l.Sound maxConns) (hsteps : Steps maxConns l l') : l'.Sound maxConns := by
  induction hsteps with
  | refl => exact h
  | tail _ hstep ih => exact ih.step hstep

end

end Listener

/-- Whatever the order in which the loop, the handlers and the cancellation take their steps.
Every connection that was accepted is in hand, handled or closed, and only one of these, once.
With a limit there are never more handlers than slots, a handler that is through finds
its token in the semaphore, and a connection has to wait only behind as many handlers as
there are slots.  The loop returns without an error only if it was cancelled, and with the
listener closed. -/
theorem connections_accounted (maxConns : Int) {l : Listener} (hrun : Listener.Steps maxConns {} l) :
    (List.range l.accepted).Perm (l.pc.inHand ++ l.running ++ l.closed) ∧
      (0 < maxConns → l.handlers ≤ maxConns ∧ (0 < l.releasing → 0 < l.sem) ∧
        ∀ conn, l.pc = .admitting conn → maxConns ≤ l.sem → l.handlers = maxConns) ∧
      ∀ err, l.pc = .returned err → l.isOpen = false ∧ (err = none → l.cancelled = true) := by
  have h := Listener.sound_start.steps hrun
  refine ⟨h.places, fun hmax => ?_, h.returned⟩
  have htokens := h.tokens hmax
  have hslots := h.slots hmax
  simp only [Listener.tokens] at htokens
  refine ⟨by omega, fun hreleasing => ?_, fun conn hpc hfull => ?_⟩
  · simp only [Listener.handlers] at htokens
    omega
  · simp only [hpc, Nat.add_zero] at htokens
    omega

/-- One slot: the second connection waits for the first. -/
theorem connections_accounted_sample :
    ∃ l, Listener.Steps 1 {} l ∧ l.pc = .admitting 1 ∧ l.running = [0] ∧ (l.handlers : Int) = 1 := by
  have hrun : Listener.Steps 1 {}
      { pc := .admitting 1, accepted := 2, sem := 1, running := [0] } :=
    Relation.ReflTransGen.refl
      |>.tail (.accept rfl rfl)
      |>.tail (.acquire rfl (by decide))
      |>.tail (.start rfl)
      |>.tail (.accept rfl rfl)
  exact ⟨_, hrun, rfl, rfl, ((connections_accounted 1 hrun).2.1 (by decide)).2.2 1 rfl (by decide)⟩

end GoIpsec.Socks
