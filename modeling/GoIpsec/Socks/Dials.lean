import GoIpsec.Socks.Server

/-!
# Which clients are dialled for

The octets of a client that gets a connection through the tunnel, as a grammar: a
greeting with the method the server asks for, the credentials of the server if it asks
for them, and a request to connect to an address or a domain.  The handshake follows the
grammar, so a target is dialled exactly if the octets start with its request.
-/

namespace GoIpsec.Socks

open Golang

/-! ## The words of a client -/

/-- A greeting that lists the method `want`. -/
def Greeting (want : UInt8) (b : Bytes) : Prop :=
  ∃ methods : Bytes, methods.length < 256 ∧ want ∈ methods ∧
    b = [socksVersion, UInt8.ofNat methods.length] ++ methods

/-- The message with the username and the password. -/
def Login (user pass b : Bytes) : Prop :=
  user.length < 256 ∧ pass.length < 256 ∧
    b = [authVersion, UInt8.ofNat user.length] ++ (user ++ ([UInt8.ofNat pass.length] ++ pass))

/-- What a request asks to be connected to. -/
inductive Destination where
  | addr (a : Addr)
  | domain (name : Bytes) (fits : name.length < 256)

/-- Type and value of the address field. -/
def Destination.field : Destination → Bytes
  | addr a => [if a.octets.length = 4 then atypIPv4 else atypIPv6] ++ a.octets
  | domain name _ => [atypDomain, UInt8.ofNat name.length] ++ name

/-- A request to connect. -/
def Request (d : Destination) (port : UInt16) (b : Bytes) : Prop :=
  ∃ reserved, b = [socksVersion, cmdConnect, reserved] ++ (d.field ++ putUint16 port)

/-- The address that is meant: the literal one, or the first answer of the resolver, in
IPv4 form if it has one. -/
def Destination.address (w : World) : Destination → Option Addr
  | addr a => some a.unmap
  | domain name _ =>
      match lookupHost w name with
      | .ok (a :: _) => some a.unmap
      | _ => none

/-- The octets start with a greeting, the credentials if they are asked for, and a request. -/
def Asks (srv : Server) (octets : Bytes) (d : Destination) (port : UInt16) : Prop :=
  ∃ greeting login request rest, octets = greeting ++ (login ++ (request ++ rest)) ∧
    Greeting srv.want greeting ∧
    (if srv.authOn then Login srv.authUser srv.authPass login else login = []) ∧
    Request d port request

/-- The replies of the handshake can be written. -/
def Answered (srv : Server) (w : World) (c : Conn) : Prop :=
  w.fails c.written.length = none ∧ (srv.authOn → w.fails (c.written.length + 1) = none)

/-! ## Length octets -/

theorem toNat_ofNat_length {b : Bytes} (h : b.length < 256) : (UInt8.ofNat b.length).toNat = b.length := by
  rw [UInt8.toNat_ofNat']
  omega

theorem ofNat_length {b : Bytes} {l : UInt8} (h : b.length = l.toNat) : UInt8.ofNat b.length = l := by
  rw [h, UInt8.ofNat_toNat]

theorem length_lt_of_octet {b : Bytes} {l : UInt8} (h : b.length = l.toNat) : b.length < 256 :=
  h ▸ UInt8.toNat_lt l

/-! ## Words from their front -/

theorem greeting_front {want v l : UInt8} {u g rest : Bytes} (hu : [v, l] ++ u = g ++ rest)
    (hg : Greeting want g) : v = socksVersion ∧ ∃ methods : Bytes, methods.length = l.toNat ∧
      want ∈ methods ∧ u = methods ++ rest := by
  obtain ⟨methods, hlen, hmem, rfl⟩ := hg
  simp only [List.cons_append, List.nil_append, List.cons.injEq] at hu
  obtain ⟨rfl, rfl, rfl⟩ := hu
  exact ⟨rfl, methods, (toNat_ofNat_length hlen).symm, hmem, rfl⟩

theorem login_front {user pass u : Bytes} {v l : UInt8} (h : Login user pass ([v, l] ++ u)) :
    v = authVersion ∧ user.length = l.toNat ∧ pass.length < 256 ∧
      u = user ++ ([UInt8.ofNat pass.length] ++ pass) := by
  obtain ⟨huser, hpass, hu⟩ := h
  simp only [List.cons_append, List.nil_append, List.cons.injEq] at hu
  obtain ⟨rfl, rfl, rfl⟩ := hu
  exact ⟨rfl, (toNat_ofNat_length huser).symm, hpass, rfl⟩

theorem login_middle {user pass user' u : Bytes} {v l : UInt8} (huser : user'.length = l.toNat)
    (h : Login user pass ([v, l] ++ (user' ++ u))) :
    user' = user ∧ pass.length < 256 ∧ u = [UInt8.ofNat pass.length] ++ pass := by
  obtain ⟨-, hl, hlt, hu⟩ := login_front h
  obtain ⟨hsame, hrest⟩ := List.append_inj hu (huser.trans hl.symm)
  exact ⟨hsame, hlt, hrest⟩

theorem login_back {user pass user' u : Bytes} {v l k : UInt8} (huser : user'.length = l.toNat)
    (h : Login user pass ([v, l] ++ (user' ++ ([k] ++ u)))) :
    user' = user ∧ pass.length = k.toNat ∧ u = pass := by
  obtain ⟨hsame, hlt, hrest⟩ := login_middle huser h
  simp only [List.cons_append, List.nil_append, List.cons.injEq] at hrest
  obtain ⟨rfl, rfl⟩ := hrest
  exact ⟨hsame, (toNat_ofNat_length hlt).symm, rfl⟩

theorem login_iff {user pass user' pass' u : Bytes} {l k : UInt8} (huser : user'.length = l.toNat)
    (hpass : pass'.length = k.toNat) :
    Login user pass ([authVersion, l] ++ (user' ++ ([k] ++ (pass' ++ u)))) ↔
      (user' = user ∧ pass' = pass) ∧ u = [] := by
  constructor
  · intro h
    obtain ⟨rfl, hk, hrest⟩ := login_back huser h
    obtain ⟨rfl, rfl⟩ := List.append_inj (hrest.trans (List.append_nil pass).symm) (hpass.trans hk.symm)
    exact ⟨⟨rfl, rfl⟩, rfl⟩
  · rintro ⟨⟨rfl, rfl⟩, rfl⟩
    refine ⟨length_lt_of_octet huser, length_lt_of_octet hpass, ?_⟩
    rw [ofNat_length huser, ofNat_length hpass, List.append_nil]

/-! ## The handshake follows the words -/

theorem lift_ok_bind {α β : Type} (a : α) (f : α → Proc Conn β) :
    (Proc.lift (.ok a) >>= f) = f a := rfl

theorem constantTimeCompare_and (x y x' y' : Bytes) :
    constantTimeCompare x x' &&& constantTimeCompare y y' = 1 ↔ x = x' ∧ y = y' := by
  unfold constantTimeCompare
  by_cases hx : x = x' <;> by_cases hy : y = y' <;> simp [hx, hy]

variable (srv : Server) (w : World)

theorem follows_checkUserPass :
    Follows (checkUserPass srv w) fun m u n _ =>
      Login srv.authUser srv.authPass u ∧ w.fails m = none ∧ n = m + 1 := by
  refine .read (fun hdr hhdr => ?_) ?_
  · obtain ⟨v, l, rfl⟩ := List.length_eq_two.mp hhdr
    simp only [index_cons_zero, index_cons_succ, lift_ok_bind]
    refine .ite (fun hv => .raise _ fun m u n a h => hv (login_front h.1).1) fun hv => ?_
    obtain rfl := not_not.mp hv
    refine .read (fun user huser => ?_) ?_
    · refine .read (fun buf hbuf => ?_) ?_
      · obtain ⟨k, rfl⟩ := List.length_eq_one_iff.mp hbuf
        simp only [index_cons_zero, lift_ok_bind]
        refine .read (fun pass hpass => ?_) ?_
        · -- only now both fields are compared
          simp only [constantTimeCompare_and, login_iff huser hpass]
          refine .ite (fun hok => ?_) fun hbad => .attempt_error _ rfl fun m u n a h => hbad h.1.1
          refine Follows.write.congr fun m u n _ => ?_
          exact (and_congr_left' (and_iff_right hok)).symm
        · rintro m u n a ⟨h, -⟩
          obtain ⟨-, hk, rfl⟩ := login_back huser h
          exact Nat.le_of_eq hk.symm
      · rintro m u n a ⟨h, -⟩
        obtain ⟨-, -, rfl⟩ := login_middle huser h
        exact Nat.le_add_left 1 _
    · rintro m u n a ⟨h, -⟩
      obtain ⟨-, hl, -, rfl⟩ := login_front h
      rw [List.length_append, hl]
      exact Nat.le_add_right _ _
  · rintro m u n a ⟨⟨-, -, rfl⟩, -⟩
    exact Nat.le_add_left 2 _

/-- The words behind a greeting, and the writes they are answered with. -/
def Credentials (m : Nat) (u : Bytes) (n : Nat) : Prop :=
  if srv.authOn then Login srv.authUser srv.authPass u ∧ w.fails m = none ∧ n = m + 1
  else u = [] ∧ n = m

/-- The words of the negotiation. -/
def Negotiation (m : Nat) (u : Bytes) (n : Nat) : Prop :=
  ∃ greeting login, u = greeting ++ login ∧ Greeting srv.want greeting ∧ w.fails m = none ∧
    Credentials srv w (m + 1) login n

theorem want_eq_userPass : srv.want = methodUserPass ↔ srv.authOn = true := by
  unfold Server.want
  cases srv.authOn <;> decide

theorem follows_credentials :
    Follows (if srv.want = methodUserPass then checkUserPass srv w else pure ()) fun m u n _ =>
      Credentials srv w m u n := by
  unfold Credentials
  refine .ite (fun hwant => ?_) fun hwant => ?_
  · simp only [(want_eq_userPass srv).mp hwant, if_true]
    exact follows_checkUserPass srv w
  · simp only [mt (want_eq_userPass srv).mpr hwant]
    exact .pure () fun m u n _ => by simp

theorem follows_negotiate : Follows (negotiate srv w) fun m u n _ => Negotiation srv w m u n := by
  refine .read (fun hdr hhdr => ?_) ?_
  · obtain ⟨v, l, rfl⟩ := List.length_eq_two.mp hhdr
    simp only [index_cons_zero, index_cons_succ, lift_ok_bind]
    refine .ite (fun hv => .raise _ ?_) fun hv => ?_
    · rintro m u n a ⟨greeting, login, hu, hg, -⟩
      exact hv (greeting_front hu hg).1
    obtain rfl := not_not.mp hv
    refine .read (fun methods hmethods => ?_) ?_
    · have hwords (m : Nat) (u : Bytes) (n : Nat) :
          Negotiation srv w m ([socksVersion, l] ++ (methods ++ u)) n ↔
            srv.want ∈ methods ∧ w.fails m = none ∧ Credentials srv w (m + 1) u n := by
        constructor
        · rintro ⟨greeting, login, hu, hg, hrest⟩
          obtain ⟨-, methods', hlen, hmem, hu⟩ := greeting_front hu hg
          obtain ⟨rfl, rfl⟩ := List.append_inj hu (hmethods.trans hlen.symm)
          exact ⟨hmem, hrest⟩
        · rintro ⟨hmem, hrest⟩
          refine ⟨[socksVersion, l] ++ methods, u, (List.append_assoc ..).symm, ?_, hrest⟩
          exact ⟨methods, length_lt_of_octet hmethods, hmem, by rw [ofNat_length hmethods]⟩
      simp only [hwords]
      refine .ite (fun hnone => .attempt_error _ rfl fun m u n a h => ?_) fun hmem => ?_
      · exact hnone (List.contains_iff_mem.mpr h.1)
      replace hmem : srv.want ∈ methods := List.contains_iff_mem.mp (not_not.mp hmem)
      simp only [hmem, true_and]
      exact Follows.write_bind (G := fun m u n _ => Credentials srv w m u n)
        (f := fun _ => if srv.want = methodUserPass then checkUserPass srv w else pure ())
        (follows_credentials srv w)
    · rintro m u n a ⟨greeting, login, hu, hg, -⟩
      obtain ⟨-, methods, hlen, -, rfl⟩ := greeting_front hu hg
      rw [List.length_append, hlen]
      exact Nat.le_add_right _ _
  · rintro m u n a ⟨_, login, rfl, ⟨methods, -, -, rfl⟩, -⟩
    exact Nat.le_add_left 2 _

/-! ## The request -/

/-- The host a destination names: the text of an address, or a domain to resolve. -/
def Destination.host : Destination → String ⊕ Bytes
  | addr a => .inl (w.text.string a.unmap)
  | domain name _ => .inr name

theorem ipString_eq (a : Addr) : ipString w a.octets = w.text.string a.unmap := by
  rw [ipString, dif_pos a.wf]

theorem Destination.field_cons (d : Destination) : ∃ t x, d.field = t :: x := by
  cases d <;> exact ⟨_, _, rfl⟩

theorem field_literal {atyp : UInt8} {k : Nat}
    (hk : atyp = atypIPv4 ∧ k = 4 ∨ atyp = atypIPv6 ∧ k = 16) (d : Destination) (x : Bytes) :
    d.field = [atyp] ++ x ↔ ∃ a, d = .addr a ∧ a.octets = x ∧ x.length = k := by
  constructor
  · intro h
    cases d with
    | domain name fits =>
        simp only [Destination.field, List.cons_append, List.cons.injEq] at h
        rcases hk with ⟨rfl, -⟩ | ⟨rfl, -⟩ <;> exact absurd h.1 (by decide)
    | addr a =>
        simp only [Destination.field, List.cons_append, List.nil_append, List.cons.injEq] at h
        obtain ⟨htype, rfl⟩ := h
        refine ⟨a, rfl, rfl, ?_⟩
        rcases a.wf with hwf | hwf <;> rcases hk with ⟨rfl, rfl⟩ | ⟨rfl, rfl⟩
        · exact hwf
        · rw [if_pos hwf] at htype
          exact absurd htype (by decide)
        · rw [if_neg (by rw [hwf]; decide)] at htype
          exact absurd htype (by decide)
        · exact hwf
  · rintro ⟨a, rfl, rfl, hlen⟩
    rcases hk with ⟨rfl, rfl⟩ | ⟨rfl, rfl⟩
    · rw [Destination.field, if_pos hlen]
    · rw [Destination.field, if_neg (by rw [hlen]; decide)]

theorem field_domain (d : Destination) (x : Bytes) :
    d.field = [atypDomain] ++ x ↔
      ∃ name fits, d = .domain name fits ∧ x = [UInt8.ofNat name.length] ++ name := by
  constructor
  · intro h
    cases d with
    | domain name fits => exact ⟨name, fits, rfl, (List.cons.inj h).2.symm⟩
    | addr a =>
        have htype := (List.cons.inj h).1
        split at htype <;> exact absurd htype (by decide)
  · rintro ⟨name, fits, rfl, rfl⟩
    rfl

/-- The words of an address field behind its type. -/
def Field (atyp : UInt8) (u : Bytes) (r : String ⊕ Bytes) : Prop :=
  ∃ d : Destination, d.field = [atyp] ++ u ∧ d.host w = r

theorem follows_literal {atyp : UInt8} {k : Nat}
    (hk : atyp = atypIPv4 ∧ k = 4 ∨ atyp = atypIPv6 ∧ k = 16) :
    Follows (do let b ← readFull k; return .inl (ipString w b)) fun m u n r =>
      n = m ∧ Field w atyp u r := by
  refine .read (fun b hb => .pure _ fun m u n r => ?_) ?_
  · constructor
    · rintro ⟨rfl, d, hd, rfl⟩
      obtain ⟨a, rfl, ha, hlen⟩ := (field_literal hk d _).mp hd
      rw [List.length_append, hb] at hlen
      obtain rfl : u = [] := List.length_eq_zero_iff.mp (by omega)
      rw [List.append_nil] at ha
      exact ⟨rfl, rfl, by rw [← ha, ipString_eq]; rfl⟩
    · rintro ⟨rfl, rfl, rfl⟩
      have hwf : b.length = 4 ∨ b.length = 16 := by
        rcases hk with ⟨-, rfl⟩ | ⟨-, rfl⟩
        · exact .inl hb
        · exact .inr hb
      refine ⟨rfl, .addr ⟨b, hwf⟩, (field_literal hk _ _).mpr ⟨_, rfl, ?_⟩, ?_⟩
      · exact ⟨(List.append_nil b).symm, by rw [List.append_nil]; exact hb⟩
      · exact congrArg Sum.inl (ipString_eq w ⟨b, hwf⟩).symm
  · rintro m u n r ⟨-, d, hd, -⟩
    obtain ⟨-, -, -, hlen⟩ := (field_literal hk d u).mp hd
    exact Nat.le_of_eq hlen.symm

theorem follows_domain :
    Follows (do
      let lb ← readFull 1
      let n ← Proc.lift (index lb 0)
      let name ← readFull n.toNat
      return .inr name) fun m u n r => n = m ∧ Field w atypDomain u r := by
  refine .read (fun lb hlb => ?_) ?_
  · obtain ⟨l, rfl⟩ := List.length_eq_one_iff.mp hlb
    simp only [index_cons_zero, lift_ok_bind]
    have hfront {u : Bytes} {d : Destination} (hd : d.field = [atypDomain] ++ ([l] ++ u)) :
        ∃ fits, d = .domain u fits ∧ u.length = l.toNat := by
      obtain ⟨name, fits, rfl, hu⟩ := (field_domain d _).mp hd
      obtain ⟨rfl, rfl⟩ := List.cons.inj hu
      exact ⟨fits, rfl, (toNat_ofNat_length fits).symm⟩
    refine .read (fun name hname => .pure _ fun m u n r => ?_) ?_
    · constructor
      · rintro ⟨rfl, d, hd, rfl⟩
        obtain ⟨fits, rfl, hlen⟩ := hfront hd
        rw [List.length_append, hname] at hlen
        obtain rfl : u = [] := List.length_eq_zero_iff.mp (by omega)
        exact ⟨rfl, rfl, by rw [Destination.host, List.append_nil]⟩
      · rintro ⟨rfl, rfl, rfl⟩
        refine ⟨rfl, .domain name (length_lt_of_octet hname), ?_, rfl⟩
        rw [Destination.field, ofNat_length hname, List.append_nil]
        rfl
    · rintro m u n r ⟨-, d, hd, -⟩
      obtain ⟨-, -, hlen⟩ := hfront hd
      exact Nat.le_of_eq hlen.symm
  · rintro m u n r ⟨-, d, hd, -⟩
    obtain ⟨name, -, -, rfl⟩ := (field_domain d u).mp hd
    exact Nat.le_add_left 1 _

theorem follows_readAddress (atyp : UInt8) :
    Follows (readAddress w atyp) fun m u n r => n = m ∧ Field w atyp u r := by
  refine .ite (fun h => ?_) fun h4 => .ite (fun h => ?_) fun h6 => .ite (fun h => ?_) fun hd => ?_
  · exact follows_literal w (.inl ⟨h, rfl⟩)
  · exact follows_literal w (.inr ⟨h, rfl⟩)
  · subst h
    exact follows_domain w
  · refine .attempt_error _ rfl ?_
    rintro m u n r ⟨-, d, hfield, -⟩
    have htype : d.field.head? = some atyp := by
      rw [hfield]
      rfl
    cases d with
    | domain name fits => exact hd (Option.some.inj htype).symm
    | addr a =>
        have htype := Option.some.inj htype
        split at htype
        · exact h4 htype.symm
        · exact h6 htype.symm

/-- The host text an address field leads to. -/
def hostText : String ⊕ Bytes → Option String
  | .inl host => some host
  | .inr name => (resolveHost w name).toOption

theorem follows_hostOf (r : String ⊕ Bytes) :
    Follows (hostOf w r) fun m u n host => u = [] ∧ n = m ∧ hostText w r = some host := by
  cases r with
  | inl host => exact .pure host fun m u n b => by simp [hostText, eq_comm]
  | inr name =>
      rw [hostOf, hostText]
      cases resolveHost w name with
      | ok host => exact .pure host fun m u n b => by simp [Except.toOption, eq_comm]
      | error e =>
          obtain ⟨e', he'⟩ : ∃ e', wrapErr (α := String) s!"resolve {w.text.quote name}: " (.error e) =
              .error e' := by
            cases e <;> exact ⟨_, rfl⟩
          exact .attempt_error _ he' fun m u n b h => by cases h.2.2

/-- The words of a request behind its address field. -/
def Target (r : String ⊕ Bytes) (u : Bytes) (target : String) : Prop :=
  ∃ port host, u = putUint16 port ∧ hostText w r = some host ∧ isUnroutableTarget w host = false ∧
    target = joinHostPort host (toString port.toNat)

theorem follows_readTarget (r : String ⊕ Bytes) :
    Follows (readTarget w r) fun m u n target => n = m ∧ Target w r u target := by
  refine .read (fun b hb => ?_) ?_
  · obtain ⟨x, y, rfl⟩ := List.length_eq_two.mp hb
    obtain ⟨port, hport⟩ := exists_putUint16 x y
    rw [hport]
    simp only [uint16_putUint16, lift_ok_bind]
    have hlast (host : String) : Follows
        (if isUnroutableTarget w host then do
          let _ ← Proc.attempt (writeReply w repHostUnreach)
          Proc.raise s!"unroutable target {joinHostPort host (toString port.toNat)}"
        else pure (joinHostPort host (toString port.toNat))) fun m u n target =>
          u = [] ∧ n = m ∧ isUnroutableTarget w host = false ∧
            target = joinHostPort host (toString port.toNat) := by
      refine .ite (fun hun => .attempt_error _ rfl fun m u n t h => ?_) fun hun => ?_
      · rw [hun] at h
        exact nomatch h.2.2.1
      · refine .pure _ fun m u n t => ?_
        rw [Bool.not_eq_true] at hun
        simp only [hun, true_and]
    refine (Follows.bind (follows_hostOf w r) hlast).congr fun m u n target => ?_
    constructor
    · rintro ⟨_, _, host, _, rfl, ⟨rfl, rfl, hhost⟩, rfl, rfl, hun, rfl⟩
      exact ⟨rfl, port, host, List.append_nil _, hhost, hun, rfl⟩
    · rintro ⟨rfl, port', host, hu, hhost, hun, rfl⟩
      obtain ⟨hsame, rfl⟩ := List.append_inj (hu.trans (List.append_nil _).symm) (by simp)
      rw [putUint16_injective hsame]
      exact ⟨[], _, host, [], rfl, ⟨rfl, rfl, hhost⟩, rfl, rfl, hun, rfl⟩
  · rintro m u n target ⟨-, port, host, rfl, -⟩
    exact Nat.le_of_eq (length_putUint16 port).symm

/-- The words of a request and the target each of them asks to be dialled. -/
def Connects (u : Bytes) (target : String) : Prop :=
  ∃ d port a, Request d port u ∧ d.address w = some a ∧ a.isUnroutable = false ∧
    target = joinHostPort (w.text.string a) (toString port.toNat)

theorem hostText_host (d : Destination) :
    hostText w (d.host w) = (d.address w).map w.text.string := by
  cases d with
  | addr a => rfl
  | domain name fits =>
      rw [Destination.host, hostText, Destination.address, resolveHost]
      cases lookupHost w name with
      | error e => rfl
      | ok ips => cases ips <;> rfl

theorem isUnroutableTarget_address {d : Destination} {a : Addr} (h : d.address w = some a) :
    isUnroutableTarget w (w.text.string a) = a.isUnroutable := by
  obtain ⟨b, rfl⟩ : ∃ b : Addr, a = b.unmap := by
    cases d with
    | addr b => exact ⟨b, (Option.some.inj h).symm⟩
    | domain name fits =>
        rw [Destination.address] at h
        split at h
        · exact ⟨_, (Option.some.inj h).symm⟩
        · cases h
  rw [isUnroutableTarget, w.text.parse_string]

theorem follows_readRequest :
    Follows (readRequest w) fun m u n target => n = m ∧ Connects w u target := by
  refine .read (fun hdr hhdr => ?_) ?_
  · obtain ⟨v, cmd, reserved, atyp, rfl⟩ : ∃ v cmd reserved atyp, hdr = [v, cmd, reserved, atyp] := by
      match hdr, hhdr with
      | [v, cmd, reserved, atyp], _ => exact ⟨v, cmd, reserved, atyp, rfl⟩
    have hfront {u : Bytes} {target : String} (h : Connects w ([v, cmd, reserved, atyp] ++ u) target) :
        v = socksVersion ∧ cmd = cmdConnect := by
      obtain ⟨d, port, a, ⟨reserved', hu⟩, -⟩ := h
      simp only [List.cons_append, List.cons.injEq] at hu
      exact ⟨hu.1, hu.2.1⟩
    simp only [index_cons_zero, index_cons_succ, lift_ok_bind]
    refine .ite (fun hv => .raise _ fun m u n t h => hv (hfront h.2).1) fun hv => ?_
    refine .ite (fun hc => .attempt_error _ rfl fun m u n t h => hc (hfront h.2).2) fun hc => ?_
    obtain rfl := not_not.mp hv
    obtain rfl := not_not.mp hc
    refine (Follows.bind (follows_readAddress w atyp) (follows_readTarget w)).congr fun m u n target => ?_
    constructor
    · rintro ⟨u₁, _, r, u₂, rfl, ⟨rfl, d, hd, rfl⟩, rfl, port, host, rfl, hhost, hun, rfl⟩
      rw [hostText_host, Option.map_eq_some_iff] at hhost
      obtain ⟨a, ha, rfl⟩ := hhost
      rw [isUnroutableTarget_address w ha] at hun
      refine ⟨rfl, d, port, a, ⟨reserved, ?_⟩, ha, hun, rfl⟩
      rw [hd]
      rfl
    · rintro ⟨rfl, d, port, a, ⟨reserved', hu⟩, ha, hun, rfl⟩
      obtain ⟨t, field, hd⟩ := d.field_cons
      rw [hd] at hu
      simp only [List.cons_append, List.nil_append, List.cons.injEq, true_and] at hu
      obtain ⟨-, rfl, rfl⟩ := hu
      refine ⟨field, n, d.host w, putUint16 port, rfl, ⟨rfl, d, hd, rfl⟩, rfl, port, w.text.string a,
        rfl, ?_, ?_, rfl⟩
      · rw [hostText_host, ha]
        rfl
      · rw [isUnroutableTarget_address w ha, hun]
  · rintro m u n target ⟨-, d, port, a, ⟨reserved, rfl⟩, -⟩
    obtain ⟨t, field, hd⟩ := d.field_cons
    rw [hd]
    exact Nat.le_add_left 4 _

/-! ## Dials -/

/-- A target is dialled if the handshake ends with it, and nothing is dialled otherwise. -/
theorem handle_dialled (c : Conn) :
    (∃ target c₁ c₂, negotiate srv w c = (.ok (), c₁) ∧ readRequest w c₁ = (.ok target, c₂) ∧
      (handle srv w c).dialled = [target]) ∨
    ((handle srv w c).dialled = [] ∧
      ∀ target c₁ c₂, negotiate srv w c = (.ok (), c₁) → readRequest w c₁ ≠ (.ok target, c₂)) := by
  unfold handle
  rcases hneg : negotiate srv w c with ⟨_ | ⟨⟩, c₁⟩
  · exact .inr ⟨rfl, fun _ _ _ h => nomatch h⟩
  dsimp only
  rcases hreq : readRequest w c₁ with ⟨_ | target, c₂⟩
  · refine .inr ⟨rfl, fun _ _ _ h hreq' => ?_⟩
    cases h
    cases hreq.symm.trans hreq'
  · refine .inl ⟨target, c₁, c₂, rfl, hreq, ?_⟩
    dsimp only
    split
    · rfl
    · split <;> rfl

theorem negotiation_iff (m : Nat) (u : Bytes) (n : Nat) :
    Negotiation srv w m u n ↔
      (∃ greeting login, u = greeting ++ login ∧ Greeting srv.want greeting ∧
        if srv.authOn then Login srv.authUser srv.authPass login else login = []) ∧
      (w.fails m = none ∧ (srv.authOn → w.fails (m + 1) = none)) ∧
      n = if srv.authOn then m + 1 + 1 else m + 1 := by
  unfold Negotiation Credentials
  cases srv.authOn with
  | true =>
      constructor
      · rintro ⟨greeting, login, hu, hg, hm, hl, hm', hn⟩
        exact ⟨⟨greeting, login, hu, hg, hl⟩, ⟨hm, fun _ => hm'⟩, hn⟩
      · rintro ⟨⟨greeting, login, hu, hg, hl⟩, ⟨hm, hm'⟩, hn⟩
        exact ⟨greeting, login, hu, hg, hm, hl, hm' rfl, hn⟩
  | false =>
      constructor
      · rintro ⟨greeting, login, hu, hg, hm, hl, hn⟩
        exact ⟨⟨greeting, login, hu, hg, hl⟩, ⟨hm, fun h => nomatch h⟩, hn⟩
      · rintro ⟨⟨greeting, login, hu, hg, hl⟩, ⟨hm, -⟩, hn⟩
        exact ⟨greeting, login, hu, hg, hm, hl, hn⟩

/-- The handshake ends with a target exactly if the octets ask for it and the replies can be
written. -/
theorem handshake_iff (c : Conn) (target : String) :
    (∃ c₁ c₂, negotiate srv w c = (.ok (), c₁) ∧ readRequest w c₁ = (.ok target, c₂)) ↔
      Answered srv w c ∧ ∃ d port a, Asks srv c.octets d port ∧ d.address w = some a ∧
        a.isUnroutable = false ∧ target = joinHostPort (w.text.string a) (toString port.toNat) := by
  constructor
  · rintro ⟨c₁, c₂, hneg, hreq⟩
    obtain ⟨u, hu, hword⟩ := (follows_negotiate srv w).sound hneg
    obtain ⟨v, hv, -, d, port, a, hrequest, ha, hun, rfl⟩ := (follows_readRequest w).sound hreq
    obtain ⟨⟨greeting, login, rfl, hg, hl⟩, hok, -⟩ := (negotiation_iff ..).mp hword
    refine ⟨hok, d, port, a, ⟨greeting, login, v, c₂.octets, ?_, hg, hl, hrequest⟩, ha, hun, rfl⟩
    rw [hu, hv, List.append_assoc]
  · rintro ⟨hok, d, port, a, ⟨greeting, login, request, rest, hu, hg, hl, hrequest⟩, ha, hun, rfl⟩
    rw [← List.append_assoc] at hu
    obtain ⟨c₁, hneg, hoctets, -⟩ := (follows_negotiate srv w).complete hu
      ((negotiation_iff ..).mpr ⟨⟨greeting, login, rfl, hg, hl⟩, hok, rfl⟩)
    obtain ⟨c₂, hreq, -⟩ := (follows_readRequest w).complete hoctets
      ⟨rfl, d, port, a, hrequest, ha, hun, rfl⟩
    exact ⟨c₁, c₂, hneg, hreq⟩

/-- However the octets of a client are cut, at most one target is dialled.  It is dialled
exactly if the octets start with a greeting, the credentials where they are asked for, and
a request for it, the replies can be written, and its address is none that can never be
reached.  Without the credentials nothing is dialled. -/
theorem handle_dials_exactly (c : Conn) :
    (handle srv w c).dialled.length ≤ 1 ∧
    (∀ target, target ∈ (handle srv w c).dialled ↔
      Answered srv w c ∧ ∃ d port a, Asks srv c.octets d port ∧ d.address w = some a ∧
        (a.isUnspecified = false ∧ a.isLinkLocalUnicast = false ∧ a.isMulticast = false) ∧
        target = joinHostPort (w.text.string a) (toString port.toNat)) ∧
    (srv.authOn = true →
      (∀ greeting login rest, Greeting methodUserPass greeting →
        Login srv.authUser srv.authPass login → c.octets ≠ greeting ++ (login ++ rest)) →
      (handle srv w c).dialled = []) := by
  have hroutable (a : Addr) : (a.isUnspecified = false ∧ a.isLinkLocalUnicast = false ∧
      a.isMulticast = false) ↔ a.isUnroutable = false := by
    rw [Addr.isUnroutable, Bool.or_eq_false_iff, Bool.or_eq_false_iff, and_assoc]
  simp only [hroutable, ← handshake_iff]
  rcases handle_dialled srv w c with ⟨target, c₁, c₂, hneg, hreq, hdialled⟩ | ⟨hdialled, hnone⟩
  · rw [hdialled]
    refine ⟨Nat.le_refl 1, fun target' => ?_, fun hauth hno => ?_⟩
    · rw [List.mem_singleton]
      constructor
      · rintro rfl
        exact ⟨c₁, c₂, hneg, hreq⟩
      · rintro ⟨c₁', c₂', hneg', hreq'⟩
        cases hneg.symm.trans hneg'
        cases hreq.symm.trans hreq'
        rfl
    · obtain ⟨-, d, port, a, ⟨greeting, login, request, rest, hu, hg, hl, -⟩, -⟩ :=
        (handshake_iff srv w c target).mp ⟨c₁, c₂, hneg, hreq⟩
      rw [if_pos hauth] at hl
      rw [(want_eq_userPass srv).mpr hauth] at hg
      exact absurd hu (hno greeting login _ hg hl)
  · rw [hdialled]
    refine ⟨Nat.zero_le 1, fun target => ?_, fun _ _ => rfl⟩
    refine iff_of_false List.not_mem_nil ?_
    rintro ⟨c₁, c₂, hneg, hreq⟩
    exact hnone target c₁ c₂ hneg hreq

/-- A world in which every write and every dial succeeds. -/
def World.sample : World where
  fails _ := none
  lookupNetIP _ _ := .ok []
  dial _ := .ok ()
  text := .octetwise

/-- A client with these credentials that asks for 10.0.0.1 and port 443, cut in the middle
of its words. -/
def sampleClient (user pass : Bytes) : Conn where
  pieces := [[5], [2, 0, 2, 1], [UInt8.ofNat user.length] ++ user ++ [UInt8.ofNat pass.length],
    pass ++ [5, 1, 0, 1, 10, 0], [0, 1, 1, 187]]
  ending := .eof
  written := []

example : (handle ⟨[97], [58, 98], true⟩ .sample (sampleClient [97] [58, 98])).dialled =
    ["\n\x00\x00\x01:443"] := by decide +kernel

-- the same octets split otherwise between the two fields
example : (handle ⟨[97], [58, 98], true⟩ .sample (sampleClient [97, 58] [98])).dialled = [] := by
  decide +kernel

end GoIpsec.Socks
