import GoIpsec.Lib.Stream

/-!
# The SOCKS5 front end

The handshake of `ipsec2socks` with one client: the methods, the credentials if the
server asks for them, the request, and the dial the request leads to.

What the handshake meets outside of itself is a `World`: which writes fail, what the
tunnel resolver answers, how a dial ends, and the textual form of an address.  A deadline
that runs out is an ending of the stream or a failing write.  An address has no zone: the
ones of a request are read from the wire, and the resolver builds its own from octets.
-/

namespace GoIpsec.Socks

open Golang

def socksVersion : UInt8 := 0x05
def authVersion : UInt8 := 0x01

def methodNoAuth : UInt8 := 0x00
def methodUserPass : UInt8 := 0x02
def methodNoneOK : UInt8 := 0xFF

def cmdConnect : UInt8 := 0x01

def atypIPv4 : UInt8 := 0x01
def atypDomain : UInt8 := 0x03
def atypIPv6 : UInt8 := 0x04

def repSuccess : UInt8 := 0x00
def repHostUnreach : UInt8 := 0x04
def repConnRefused : UInt8 := 0x05
def repCommandNotSupport : UInt8 := 0x07
def repAddrNotSupport : UInt8 := 0x08

/-! ## Addresses -/

/-- An address of four or of sixteen octets. -/
structure Addr where
  octets : Bytes
  wf : octets.length = 4 ∨ octets.length = 16
deriving DecidableEq

/-- What an IPv4 address written as an IPv6 one starts with. -/
def mappedFront : Bytes := [0, 0, 0, 0, 0, 0, 0, 0, 0, 0, 0xFF, 0xFF]

theorem length_drop_mapped {a : Addr} (h : a.octets.take 12 = mappedFront) :
    (a.octets.drop 12).length = 4 := by
  have hlen := congrArg List.length h
  rw [List.length_take] at hlen
  change min 12 _ = 12 at hlen
  rw [List.length_drop]
  rcases a.wf with hwf | hwf <;> omega

/-- The IPv4 form of an IPv4-mapped address, and any other address itself. -/
def Addr.unmap (a : Addr) : Addr :=
  if h : a.octets.take 12 = mappedFront then ⟨a.octets.drop 12, .inl (length_drop_mapped h)⟩ else a

/-- 0.0.0.0 or ::. -/
def Addr.isUnspecified (a : Addr) : Bool := a.octets.all (· == 0)

/-- 169.254.0.0/16 or fe80::/10. -/
def Addr.isLinkLocalUnicast (a : Addr) : Bool :=
  match a.octets with
  | [x, y, _, _] => x == 169 && y == 254
  | x :: y :: _ => x == 0xFE && y &&& 0xC0 == 0x80
  | _ => false

/-- 224.0.0.0/4 or ff00::/8. -/
def Addr.isMulticast (a : Addr) : Bool :=
  match a.octets with
  | [x, _, _, _] => x &&& 0xF0 == 0xE0
  | x :: _ => x == 0xFF
  | _ => false

/-- The address can never be the target of a connection through the tunnel. -/
def Addr.isUnroutable (a : Addr) : Bool :=
  a.isUnspecified || a.isLinkLocalUnicast || a.isMulticast

/-- Textual forms.  An address is parsed to its IPv4 form where it has one, and what is
printed of such a form is parsed back. -/
structure AddrText where
  string : Addr → String
  parseIP : String → Option Addr
  parse_string : ∀ a : Addr, parseIP (string a.unmap) = some a.unmap
  quote : Bytes → String

theorem ofNat_char (o : UInt8) : UInt8.ofNat (Char.ofNat o.toNat).toNat = o := by
  have h : ∀ n < 256, (Char.ofNat n).toNat = n := by decide +kernel
  rw [h o.toNat (UInt8.toNat_lt o), UInt8.ofNat_toNat]

/-- Octets as characters: a textual form to compute with. -/
def AddrText.octetwise : AddrText where
  string a := String.ofList (a.octets.map fun o => Char.ofNat o.toNat)
  parseIP s :=
    let b := s.toList.map fun ch => UInt8.ofNat ch.toNat
    if h : b.length = 4 ∨ b.length = 16 then some ⟨b, h⟩ else none
  parse_string a := by
    have hback : (a.unmap.octets.map fun o => Char.ofNat o.toNat).map
        (fun ch => UInt8.ofNat ch.toNat) = a.unmap.octets := by
      simp only [List.map_map, Function.comp_def, ofNat_char, List.map_id']
    simp only [String.toList_ofList, hback, a.unmap.wf, dif_pos]
  quote b := String.ofList (b.map fun o => Char.ofNat o.toNat)

/-- net.JoinHostPort. -/
def joinHostPort (host port : String) : String :=
  if ':' ∈ host.toList then "[" ++ host ++ "]:" ++ port else host ++ ":" ++ port

/-! ## Server and world -/

/-- The credentials and whether they are asked for. -/
structure Server where
  authUser : Bytes
  authPass : Bytes
  authOn : Bool

/-- The families a lookup may be limited to. -/
inductive Family where
  | ip4
  | ip
deriving Repr, DecidableEq

/-- What `dialReplyCode` tells apart. -/
inductive DialError where
  | deadlineExceeded
  | timeout
  | other
deriving Repr, DecidableEq

structure World where
  fails : Nat → Option String
  lookupNetIP : Family → Bytes → Go (List Addr)
  dial : String → Except DialError Unit
  text : AddrText

/-- A reply with a zero address and a zero port. -/
def writeReply (w : World) (code : UInt8) : Proc Conn Unit :=
  write w.fails [socksVersion, code, 0x00, atypIPv4, 0, 0, 0, 0, 0, 0]

def dialReplyCode : DialError → UInt8
  | .deadlineExceeded => repHostUnreach
  | .timeout => repHostUnreach
  | .other => repConnRefused

/-! ## The handshake -/

/-- One if the operands are equal, zero otherwise. -/
def constantTimeCompare (x y : Bytes) : Nat := if x = y then 1 else 0

def checkUserPass (srv : Server) (w : World) : Proc Conn Unit := do
  let hdr ← readFull 2
  let version ← Proc.lift (index hdr 0)
  if version ≠ authVersion then Proc.raise "bad auth version"
  else
    let ulen ← Proc.lift (index hdr 1)
    let user ← readFull ulen.toNat
    let plenBuf ← readFull 1
    let plen ← Proc.lift (index plenBuf 0)
    let pass ← readFull plen.toNat
    let userOK := constantTimeCompare user srv.authUser
    let passOK := constantTimeCompare pass srv.authPass
    if userOK &&& passOK = 1 then write w.fails [authVersion, 0x00]
    else
      let _ ← Proc.attempt (write w.fails [authVersion, 0x01])
      Proc.raise "bad credentials"

/-- The method the server asks for. -/
def Server.want (srv : Server) : UInt8 := if srv.authOn then methodUserPass else methodNoAuth

def negotiate (srv : Server) (w : World) : Proc Conn Unit := do
  let hdr ← readFull 2
  let version ← Proc.lift (index hdr 0)
  if version ≠ socksVersion then Proc.raise s!"unsupported SOCKS version {version}"
  else
    let n ← Proc.lift (index hdr 1)
    let methods ← readFull n.toNat
    if ¬methods.contains srv.want then
      let _ ← Proc.attempt (write w.fails [socksVersion, methodNoneOK])
      Proc.raise "no acceptable auth method"
    else
      let _ ← write w.fails [socksVersion, srv.want]
      if srv.want = methodUserPass then checkUserPass srv w else pure ()

/-- The answers of the resolver: those for IPv4, and those of any family if there are
none. -/
def lookupHost (w : World) (name : Bytes) : Go (List Addr) :=
  match w.lookupNetIP .ip4 name with
  | .ok (a :: ips) => .ok (a :: ips)
  | _ => w.lookupNetIP .ip name

def resolveHost (w : World) (name : Bytes) : Go String := do
  match ← lookupHost w name with
  | [] => fail "no addresses"
  | a :: _ => return w.text.string a.unmap

def isUnroutableTarget (w : World) (host : String) : Bool :=
  match w.text.parseIP host with
  | none => false
  | some ip => ip.isUnroutable

/-- net.IP.String on the octets of an address field. -/
def ipString (w : World) (b : Bytes) : String :=
  if h : b.length = 4 ∨ b.length = 16 then w.text.string (Addr.unmap ⟨b, h⟩) else "<nil>"

/-- The address field of a request: a host in textual form, or a domain. -/
def readAddress (w : World) (atyp : UInt8) : Proc Conn (String ⊕ Bytes) :=
  if atyp = atypIPv4 then do
    let b ← readFull 4
    return .inl (ipString w b)
  else if atyp = atypIPv6 then do
    let b ← readFull 16
    return .inl (ipString w b)
  else if atyp = atypDomain then do
    let lb ← readFull 1
    let n ← Proc.lift (index lb 0)
    let name ← readFull n.toNat
    return .inr name
  else do
    let _ ← Proc.attempt (writeReply w repAddrNotSupport)
    Proc.raise s!"unsupported address type {atyp}"

/-- The host of an address field, a domain being resolved. -/
def hostOf (w : World) : String ⊕ Bytes → Proc Conn String
  | .inl host => pure host
  | .inr domain =>
      match resolveHost w domain with
      | .ok host => pure host
      | .error e => do
          let _ ← Proc.attempt (writeReply w repHostUnreach)
          Proc.lift (wrapErr s!"resolve {w.text.quote domain}: " (.error e))

/-- The rest of a request behind its address field.  The port is read before a domain is
resolved. -/
def readTarget (w : World) (address : String ⊕ Bytes) : Proc Conn String := do
  let portBuf ← readFull 2
  let portValue ← Proc.lift (uint16 portBuf)
  let port := toString portValue.toNat
  let host ← hostOf w address
  let target := joinHostPort host port
  if isUnroutableTarget w host then
    let _ ← Proc.attempt (writeReply w repHostUnreach)
    Proc.raise s!"unroutable target {target}"
  else return target

/-- The target to dial. -/
def readRequest (w : World) : Proc Conn String := do
  let hdr ← readFull 4
  let version ← Proc.lift (index hdr 0)
  if version ≠ socksVersion then Proc.raise "bad request version"
  else
    let cmd ← Proc.lift (index hdr 1)
    if cmd ≠ cmdConnect then
      let _ ← Proc.attempt (writeReply w repCommandNotSupport)
      Proc.raise s!"unsupported command {cmd} (only CONNECT)"
    else
      let atyp ← Proc.lift (index hdr 3)
      let address ← readAddress w atyp
      readTarget w address

/-! ## One client -/

/-- What became of a client: the dials made for it, and whether it was spliced to an
upstream connection. -/
structure Served where
  conn : Conn
  dialled : List String
  spliced : Bool

/-- An error of the handshake is logged and ends the connection. -/
def handle (srv : Server) (w : World) (c : Conn) : Served :=
  match negotiate srv w c with
  | (.error _, c) => { conn := c, dialled := [], spliced := false }
  | (.ok (), c) =>
      match readRequest w c with
      | (.error _, c) => { conn := c, dialled := [], spliced := false }
      | (.ok target, c) =>
          match w.dial target with
          | .error e =>
              { conn := (writeReply w (dialReplyCode e) c).2, dialled := [target], spliced := false }
          | .ok () =>
              match writeReply w repSuccess c with
              | (.error _, c) => { conn := c, dialled := [target], spliced := false }
              | (.ok (), c) => { conn := c, dialled := [target], spliced := true }

end GoIpsec.Socks
