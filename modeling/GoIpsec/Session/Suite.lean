import GoIpsec.Esp.Packet
import GoIpsec.Ikemsg.Payload
import GoIpsec.Ikesa.Keys

/-!
# Transform suites

The suites a session can negotiate, for the IKE envelope and for ESP, and the
proposals they are offered and matched by.  One core serves both layers: the type
of the identifier fixes the protocol, and with it the SPI width and the transforms
a proposal carries.

A proposal is matched in two ways.  A peer that initiates lists alternatives, and
`suiteMatches` asks that ours be present among them.  A peer that responds has
selected, and `isSelectionFor` asks that nothing else be left.
-/

namespace GoIpsec.Session

open Golang Ikemsg

/-- The identifiers of the suites of one layer. -/
class SuiteID (ID : Type) where
  protocol : ProtocolID
  string : ID → String

instance : SuiteID Esp.Suite where
  protocol := protocolESP
  string := Esp.Suite.string

instance : SuiteID Ikesa.Suite where
  protocol := protocolIKE
  string := Ikesa.Suite.string

def keyLenAES256 : UInt16 := 256

/-- One negotiable suite: the transforms it is offered by and the lengths of the
keys derived for it.  A `keyBits` of 0 is a suite without Key Length attribute, an
`integID` of 0 an AEAD suite. -/
structure TransformSuite (ID : Type) where
  id : ID
  encrID : UInt16
  keyBits : UInt16 := 0
  encrKeyLen : Nat
  integID : UInt16 := 0
  integKeyLen : Nat := 0
deriving Repr, DecidableEq

abbrev EspSuite := TransformSuite Esp.Suite
abbrev IkeSuite := TransformSuite Ikesa.Suite

def TransformSuite.aead {ID : Type} (s : TransformSuite ID) : Bool := s.integID == 0

section

variable {ID : Type} [SuiteID ID]

def TransformSuite.name (s : TransformSuite ID) : String := SuiteID.string s.id

def TransformSuite.protocol (_ : TransformSuite ID) : ProtocolID := SuiteID.protocol ID

def TransformSuite.spiLen (s : TransformSuite ID) : Nat := if s.protocol = protocolIKE then 8 else 4

end

@[simp] theorem spiLen_espSuite (s : EspSuite) : s.spiLen = 4 := rfl

@[simp] theorem spiLen_ikeSuite (s : IkeSuite) : s.spiLen = 8 := rfl

/-! ## Tables -/

/-- The ESP suites, most preferred first. -/
def espSuites : List EspSuite :=
  [{ id := .aesGCM256, encrID := encrAESGCM16, keyBits := keyLenAES256, encrKeyLen := 36 },
   { id := .chaCha20Poly1305, encrID := encrChaCha20Poly1305, encrKeyLen := 36 },
   { id := .aesCBC256SHA256, encrID := encrAESCBC, keyBits := keyLenAES256, encrKeyLen := 32,
     integID := authHMACSHA2256128, integKeyLen := 32 }]

/-- The suites of the IKE envelope, most preferred first. -/
def ikeSuites : List IkeSuite :=
  [{ id := .aesGCM256, encrID := encrAESGCM16, keyBits := keyLenAES256, encrKeyLen := 36 },
   { id := .chaCha20Poly1305, encrID := encrChaCha20Poly1305, encrKeyLen := 36 },
   { id := .aesCBC256SHA256, encrID := encrAESCBC, keyBits := keyLenAES256, encrKeyLen := 32,
     integID := authHMACSHA2256128, integKeyLen := 32 }]

def suiteByID {ID : Type} [DecidableEq ID] (id : ID) (table : List (TransformSuite ID)) :
    Option (TransformSuite ID) :=
  table.find? fun s => s.id == id

/-- The rows of the configured suites, in the configured order.  Nothing configured
enables the whole table; an identifier without row is skipped. -/
def enabledSuites {ID : Type} [DecidableEq ID] (configured : List ID)
    (table : List (TransformSuite ID)) : List (TransformSuite ID) :=
  if configured.length = 0 then table else configured.filterMap fun id => suiteByID id table

theorem mem_of_mem_enabledSuites {ID : Type} [DecidableEq ID] {configured : List ID}
    {table : List (TransformSuite ID)} {s : TransformSuite ID}
    (h : s ∈ enabledSuites configured table) : s ∈ table := by
  unfold enabledSuites at h
  split at h
  · exact h
  · obtain ⟨id, -, hid⟩ := List.mem_filterMap.mp h
    exact List.mem_of_find?_eq_some hid

theorem keyLen_espSuites {s : EspSuite} (h : s ∈ espSuites) :
    2 * (s.encrKeyLen + s.integKeyLen) ≤ 8160 := by
  have hall : ∀ s ∈ espSuites, 2 * (s.encrKeyLen + s.integKeyLen) ≤ 8160 := by decide
  exact hall s h

/-! ## Proposals -/

section

variable {ID : Type} [SuiteID ID]

/-- The proposal for one suite: Encr, PRF, [Integ], [DH...] for IKE and Encr,
[Integ], [DH...], ESN for ESP. -/
def buildProposalForSuite (number : UInt8) (s : TransformSuite ID) (spi : Bytes)
    (groups : List UInt16) : Proposal where
  number := number
  protocol := s.protocol
  spi := spi
  transforms :=
    [{ type := transformEncr, id := s.encrID, keyLength := s.keyBits,
       hasKeyLength := s.keyBits != 0 }] ++
    ((if s.protocol = protocolIKE then [{ type := transformPRF, id := prfHMACSHA2256 }] else []) ++
    ((if s.aead then [] else [{ type := transformInteg, id := s.integID }]) ++
    (groups.map (fun g => { type := transformDH, id := g }) ++
    (if s.protocol = protocolESP then [{ type := transformESN, id := esnNone }] else []))))

/-- One proposal per suite from position `i` on, numbered from `i + 1`. -/
def buildProposalsFrom (i : Nat) (spi : Bytes) (groups : List UInt16) :
    List (TransformSuite ID) → List Proposal
  | [] => []
  | s :: suites =>
      buildProposalForSuite (UInt8.ofNat (i + 1)) s spi groups ::
        buildProposalsFrom (i + 1) spi groups suites

def buildProposals (spi : Bytes) (suites : List (TransformSuite ID)) (groups : List UInt16) :
    List Proposal :=
  buildProposalsFrom 0 spi groups suites

/-- Whether a transform with this identifier is among the alternatives.  A key
length of 0 asks that the attribute be absent. -/
def hasTransform (ts : List Transform) (id : UInt16) (keyLen : Option UInt16) : Bool :=
  ts.any fun t => t.id == id &&
    match keyLen with
    | none => true
    | some n => if n = 0 then !t.hasKeyLength else t.hasKeyLength && t.keyLength == n

/-- Whether the proposal offers the suite among its alternatives. -/
def suiteMatches (s : TransformSuite ID) (p : Proposal) : Bool :=
  p.protocol == s.protocol &&
  hasTransform (p.byType transformEncr) s.encrID (some s.keyBits) &&
  (s.protocol != protocolIKE || hasTransform (p.byType transformPRF) prfHMACSHA2256 none) &&
  (if s.aead then
    (p.byType transformInteg).length == 0 || hasTransform (p.byType transformInteg) authNone none
  else hasTransform (p.byType transformInteg) s.integID none) &&
  (s.protocol != protocolESP || hasTransform (p.byType transformESN) esnNone none)

/-- Whether the proposal is a selection of the suite, with one transform per type. -/
def isSelectionFor (s : TransformSuite ID) (p : Proposal) : Bool :=
  suiteMatches s p && (p.byType transformEncr).length == 1 &&
  decide ((p.byType transformDH).length ≤ 1) &&
  (s.protocol != protocolIKE || (p.byType transformPRF).length == 1) &&
  (s.protocol != protocolESP || (p.byType transformESN).length == 1) &&
  (if s.aead then
    match p.byType transformInteg with
    | [] => true
    | [t] => t.id == authNone
    | _ => false
  else (p.byType transformInteg).length == 1)

/-- The integrity transforms of a selection. -/
theorem selectsInteg_iff {aead : Bool} {ts : List Transform} :
    (if aead then
      match ts with
      | [] => true
      | [t] => t.id == authNone
      | _ => false
    else ts.length == 1) = true ↔
      if aead then ts = [] ∨ ∃ t, ts = [t] ∧ t.id = authNone else ts.length = 1 := by
  split
  · rcases ts with _ | ⟨t, _ | ⟨u, ts⟩⟩ <;> simp
  · rw [beq_iff_eq]

/-- The enabled suite a responder has selected. -/
def selectedSuite (p : Proposal) (enabled : List (TransformSuite ID)) :
    Option (TransformSuite ID) :=
  enabled.find? fun s => isSelectionFor s p

def preferredDHGroups : List UInt16 := [dhX25519, dhMODP2048]

def supportedDHGroup (g : UInt16) : Bool := preferredDHGroups.contains g

def proposalHasDHGroup (p : Proposal) (g : UInt16) : Bool :=
  hasTransform (p.byType transformDH) g none

/-- Our choice from the offer of a peer that initiates: the first enabled suite that
some proposal offers, with that proposal.  A group other than 0 must be offered by
the proposal too. -/
def selectProposal (sa : SAPayload) (enabled : List (TransformSuite ID)) (requireGroup : UInt16) :
    Option (Proposal × TransformSuite ID) :=
  enabled.findSome? fun s =>
    (sa.proposals.find? fun p => suiteMatches s p && p.spi.length == s.spiLen &&
      (requireGroup == 0 || proposalHasDHGroup p requireGroup)).map fun p => (p, s)

end

/-- A suite is selected from the enabled ones. -/
theorem mem_of_selectedSuite {ID : Type} [SuiteID ID] {p : Proposal}
    {enabled : List (TransformSuite ID)} {s : TransformSuite ID}
    (h : selectedSuite p enabled = some s) : s ∈ enabled ∧ isSelectionFor s p = true :=
  ⟨List.mem_of_find?_eq_some h, List.find?_some (p := fun s => isSelectionFor s p) h⟩

/-- What `selectProposal` returns: an enabled suite and an offered proposal that
matches it, of the width of the protocol and with the group asked for. -/
theorem selectProposal_eq_some {ID : Type} [SuiteID ID] {sa : SAPayload}
    {enabled : List (TransformSuite ID)} {group : UInt16} {p : Proposal} {s : TransformSuite ID}
    (h : selectProposal sa enabled group = some (p, s)) :
    s ∈ enabled ∧ p ∈ sa.proposals ∧ suiteMatches s p = true ∧ p.spi.length = s.spiLen ∧
      (group = 0 ∨ proposalHasDHGroup p group = true) := by
  obtain ⟨s', hs, hp⟩ := List.exists_of_findSome?_eq_some h
  rw [Option.map_eq_some_iff] at hp
  obtain ⟨p', hfind, heq⟩ := hp
  cases heq
  have hmatch := List.find?_some hfind
  simp only [Bool.and_eq_true, beq_iff_eq, Bool.or_eq_true] at hmatch
  exact ⟨hs, List.mem_of_find?_eq_some hfind, hmatch.1.1, hmatch.1.2, hmatch.2⟩

/-- The group of a selected proposal, or 0. -/
def selectedDHGroup (p : Proposal) : UInt16 :=
  match p.byType transformDH with
  | [] => 0
  | t :: _ => t.id

/-! ## Diagnostics -/

def transformIDs (ts : List Transform) : String :=
  let ids := String.intercalate " " (ts.map fun t => toString t.id)
  s!"[{ids}]"

def describeProposal (p : Proposal) : String :=
  let (number, protocol, spiLen) := (p.number, p.protocol, p.spi.length)
  let enc := transformIDs (p.byType transformEncr)
  let integ := transformIDs (p.byType transformInteg)
  let prf := transformIDs (p.byType transformPRF)
  let dh := transformIDs (p.byType transformDH)
  let esn := transformIDs (p.byType transformESN)
  s!"#{number} proto={protocol} enc={enc} integ={integ} prf={prf} dh={dh} esn={esn} spiLen={spiLen}"

/-- What a peer offered, for the text of an error. -/
def describeProposals (sa : SAPayload) : String :=
  String.intercalate "; " (sa.proposals.map describeProposal)

end GoIpsec.Session
