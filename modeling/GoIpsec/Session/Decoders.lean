import GoIpsec.Esp.Safety
import GoIpsec.Session.Informational
import GoIpsec.Session.IkeAuth

/-!
# Octets from the network do not crash the client

All that decodes what comes from the network, on any octets and in any state: the
messages and their payloads, the encrypted payload, the inner authentication, the
datagrams and the ESP packets.  A call of each ends in a value or an error, so no slice
expression is out of range and no loop runs for ever.

An SPI has a fixed width in the session and any width in a message, so it is read only
where its width has been tested.
-/

set_option linter.dupNamespace false

namespace GoIpsec.Session

open Golang Ikemsg Ikesa

/-- Every decoder ends in a value or an error.  An IKE SA is as derivation leaves it, and
an ESP SA as its construction does. -/
structure DecodersSafe (c : Crypto) (lib : Eap.Library) : Prop where
  parse : ∀ raw, Safe (Ikemsg.parse raw)
  parsePayloads : ∀ first body, Safe (parsePayloads first body)
  unmarshalBody : ∀ t following u, newPayload t following = some u → ∀ body, Safe (u body)
  openSK : ∀ ike : IKESA, ike.WF → ∀ raw skData, Safe (ike.openSK c raw skData).1
  decryptSK : ∀ (ike : IKESA) (skData : Bytes), Safe (ike.decryptSK c skData)
  decodeSK : ∀ ike : IKESA, ike.WF → ∀ raw, Safe (decodeSKWith c ike raw).1
  eapParse : ∀ raw, Safe (Eap.parse raw)
  handleChallenge : ∀ rand req m, Safe (Eap.handleChallenge lib rand req m).1
  handleSuccess : ∀ req m, Safe (Eap.handleSuccess lib req m).1
  classify : ∀ datagram, Safe (classify datagram)
  decrypt : ∀ sa : Esp.SA, sa.Sound → ∀ pkt, Safe (sa.decrypt c pkt).1
  parseTrailer : ∀ plain, Safe (Esp.parseTrailer plain)

/-- Each turn of a decoding loop takes at least one octet. -/
structure LoopsConsume : Prop where
  payloads : Consumes parsePayload
  proposals : ∀ b p rest, parseProposal b = .ok (p, rest) → rest.length < b.length
  transforms : ∀ b t rest, parseTransform b = .ok (t, rest) → rest.length < b.length
  attributes : ∀ tlen b a rest, parseAttr tlen b = .ok (a, rest) → rest.length < b.length
  configuration : ∀ b a rest, parseConfigAttr b = .ok (a, rest) → rest.length < b.length

/-- The SPIs that the session reads have the width that is read. -/
structure WidthsTested (c : Crypto) : Prop where
  /-- Ours are drawn at that width. -/
  drawn : ∀ (r : RandRead) n spi, r.full n = .ok spi → spi.length = n
  firstChild : ∀ (s : Handshake) sa prop suite, s.selectChild sa = .ok (prop, suite) →
    prop.spi.length = 4
  childResponse : ∀ enabled inner prop suite nr ke,
    childRekeyResponse enabled inner = .ok (prop, suite, nr, ke) → prop.spi.length = 4
  childRequest : ∀ sa (enabled : List EspSuite) group prop suite,
    selectProposal sa enabled group = some (prop, suite) → prop.spi.length = 4
  ikeResponse : ∀ enabled skd ctx inner, Safe (ikeRekeyResult c enabled skd ctx inner) ∧
    ∀ spir ike, ikeRekeyResult c enabled skd ctx inner = .ok (spir, ike) →
      ∃ saP ni ke prop rest, ikeRekeyPayloads inner = .ok (saP, ni, ke) ∧
        saP.proposals = prop :: rest ∧ prop.spi.length = 8 ∧ uint64 prop.spi = .ok spir
  ikeRequest : ∀ sa (enabled : List IkeSuite) group prop suite,
    selectProposal sa enabled group = some (prop, suite) → prop.spi.length = 8
  /-- An SPI of another width in a delete is not read. -/
  delete : ∀ d child, deleteRefsChild d child =
    deleteRefsChild { d with spis := d.spis.filter fun raw => raw.length == 4 } child

/-- The SAs a session can have are those the decoders are safe with. -/
structure StatesSound (c : Crypto) : Prop where
  derive : ∀ suite role spii spir ni nr shared ike,
    derive c suite role spii spir ni nr shared = .ok ike → ike.WF
  deriveRekeyIKE : ∀ suite skd role spii spir ni nr shared ike,
    deriveRekeyIKE c suite skd role spii spir ni nr shared = .ok ike → ike.WF
  counted : ∀ (ike : IKESA) (n : UInt64), ike.WF → IKESA.WF { ike with skSeq := n }
  newSA : ∀ suite outSPI inSPI e₁ a₁ e₂ a₂ w sa,
    Esp.newSA suite outSPI inSPI e₁ a₁ e₂ a₂ w = .ok sa → sa.Sound
  encrypt : ∀ (sa : Esp.SA) (rand : RandRead) (inner : Bytes), sa.Sound →
    (sa.encrypt c rand inner).2.Sound
  decrypt : ∀ (sa : Esp.SA) (pkt : Bytes), sa.Sound → (sa.decrypt c pkt).2.Sound

/-! ## SPIs -/

theorem length_spi_of_selectChild {s : Handshake} {sa : Option SAPayload} {prop : Proposal}
    {suite : EspSuite} (h : s.selectChild sa = .ok (prop, suite)) : prop.spi.length = 4 := by
  unfold Handshake.selectChild at h
  split at h
  · cases h
  split at h
  · cases h
  dsimp only at h
  split at h
  · cases h
  split at h
  · cases h
  · rename_i hlen
    cases h
    exact not_not.mp hlen

theorem ikeRekeyPayloads_safe (inner : Payloads) : Safe (ikeRekeyPayloads inner) := by
  unfold ikeRekeyPayloads
  refine (collectPayloads_safe true {} inner).bind fun r _ => ?_
  split
  · exact Safe.fail _
  split
  · exact Safe.fail _
  split
  · exact Safe.fail _
  · exact Safe.ok _

theorem deriveRekeyIKE_safe (c : Crypto) (suite : Ikesa.Suite) (oldSKd : Bytes) (role : Role)
    (spii spir : UInt64) (ni nr shared : Bytes) :
    Safe (deriveRekeyIKE c suite oldSKd role spii spir ni nr shared) := by
  unfold deriveRekeyIKE
  split
  · exact Safe.fail _
  split
  · exact Safe.fail _
  split
  · exact Safe.fail _
  obtain ⟨sa, -, hsa⟩ := deriveFromSKEYSEED_ok c suite spii spir ni nr
    (prf c oldSKd (shared ++ (ni ++ nr)))
  rw [(hsa role).1]
  exact Safe.ok _

/-- The response to an IKE SA exchange of ours is read without a crash, and its SPI if it
has eight octets. -/
theorem ikeRekeyResult_spi (c : Crypto) (enabled : List IkeSuite) (skd : Bytes) (ctx : IkeRekeyCtx)
    (inner : Payloads) : Safe (ikeRekeyResult c enabled skd ctx inner) ∧
      ∀ spir ike, ikeRekeyResult c enabled skd ctx inner = .ok (spir, ike) →
        ∃ saP ni ke prop rest, ikeRekeyPayloads inner = .ok (saP, ni, ke) ∧
          saP.proposals = prop :: rest ∧ prop.spi.length = 8 ∧ uint64 prop.spi = .ok spir := by
  unfold ikeRekeyResult
  cases hp : ikeRekeyPayloads inner with
  | error e => exact ⟨(ikeRekeyPayloads_safe inner).of_error hp, fun _ _ h => by cases h⟩
  | ok r =>
      obtain ⟨saP, ni, ke⟩ := r
      rw [ok_bind]
      dsimp only
      split
      · exact ⟨Safe.fail _, fun _ _ h => by cases h⟩
      rename_i prop rest hprops
      split
      · exact ⟨Safe.fail _, fun _ _ h => by cases h⟩
      split
      · exact ⟨Safe.fail _, fun _ _ h => by cases h⟩
      rename_i hlen
      rw [not_not] at hlen
      obtain ⟨spir, hspir⟩ := uint64_ok (b := prop.spi) (by omega)
      rw [hspir, ok_bind]
      constructor
      · split
        · exact Safe.fail _
        refine (Safe.wrapErr _ (DH.shared_safe c _ _)).bind fun shared _ => ?_
        exact (deriveRekeyIKE_safe c _ _ _ _ _ _ _ _).bind fun _ _ => Safe.ok _
      · intro spir' ike h
        split at h
        · cases h
        simp only [bind_eq_ok, pure_eq_ok, Except.ok.injEq, Prod.mk.injEq] at h
        obtain ⟨_, _, _, _, rfl, _⟩ := h
        exact ⟨saP, ni, ke, prop, rest, rfl, hprops, hlen, hspir⟩

theorem deleteRefsChild_filter (d : DeletePayload) (child : ChildSA) :
    deleteRefsChild d child =
      deleteRefsChild { d with spis := d.spis.filter fun raw => raw.length == 4 } child := by
  unfold deleteRefsChild
  rw [List.any_filter]
  congr 1
  funext raw
  cases raw.length == 4 <;> rfl

theorem widthsTested (c : Crypto) : WidthsTested c where
  drawn _ _ _ h := RandRead.full_length h
  firstChild _ _ _ _ h := length_spi_of_selectChild h
  childResponse _ _ _ _ _ _ h := by
    obtain ⟨_, _, _, _, _, _, _, hlen, _⟩ := childRekeyResponse_eq_ok h
    exact hlen
  childRequest _ _ _ _ _ h := (selectProposal_eq_some h).2.2.2.1
  ikeResponse := ikeRekeyResult_spi c
  ikeRequest _ _ _ _ _ h := (selectProposal_eq_some h).2.2.2.1
  delete := deleteRefsChild_filter

/-! ## SAs -/

theorem wf_of_deriveFromSKEYSEED {c : Crypto} {suite : Ikesa.Suite} {role : Role}
    {spii spir : UInt64} {ni nr skeyseed : Bytes} {ike : IKESA}
    (h : deriveFromSKEYSEED c suite role spii spir ni nr skeyseed = .ok ike) : ike.WF := by
  obtain ⟨sa, hmirror, hsa⟩ := deriveFromSKEYSEED_ok c suite spii spir ni nr skeyseed
  rw [(hsa role).1, Except.ok.injEq] at h
  subst h
  exact (hmirror role).left

theorem wf_of_derive {c : Crypto} {suite : Ikesa.Suite} {role : Role} {spii spir : UInt64}
    {ni nr shared : Bytes} {ike : IKESA}
    (h : derive c suite role spii spir ni nr shared = .ok ike) : ike.WF := by
  unfold derive at h
  split at h
  · cases h
  split at h
  · cases h
  · exact wf_of_deriveFromSKEYSEED h

theorem encrypt_sound {c : Crypto} {sa : Esp.SA} (rand : RandRead) (inner : Bytes) (h : sa.Sound) :
    (sa.encrypt c rand inner).2.Sound := by
  by_cases htop : sa.seq = 0xFFFFFFFF
  · rw [Esp.SA.encrypt, if_pos htop]
    exact h
  · rw [Esp.SA.encrypt_state rand inner htop]
    exact ⟨h.salts, h.window⟩

theorem statesSound (c : Crypto) : StatesSound c where
  derive _ _ _ _ _ _ _ _ h := wf_of_derive h
  deriveRekeyIKE _ _ _ _ _ _ _ _ _ h := by
    obtain ⟨-, -, -, -, _, -, hmirror⟩ := deriveRekeyIKE_ok h
    exact hmirror.left
  counted _ _ h := ⟨h.skd, h.skei, h.sker, h.aead⟩
  newSA _ _ _ _ _ _ _ _ _ h := Esp.newSA_sound h
  encrypt _ rand inner h := encrypt_sound rand inner h
  decrypt _ pkt h := by
    obtain ⟨res, replay, hdec, -, hsound⟩ := h.decrypt c pkt
    rw [hdec]
    exact hsound

/-! ## All decoders -/

theorem loopsConsume : LoopsConsume where
  payloads := consumes_parsePayload
  proposals := parseProposal_consumes
  transforms := parseTransform_consumes
  attributes := parseAttr_consumes
  configuration := parseConfigAttr_consumes

/-- No octets crash a decoder. -/
theorem decoders_safe (c : Crypto) {lib : Eap.Library} (hlib : lib.NoCrash) :
    DecodersSafe c lib ∧ StatesSound c ∧ LoopsConsume ∧ WidthsTested c := by
  refine ⟨?_, statesSound c, loopsConsume, widthsTested c⟩
  constructor
  case parse => exact Ikemsg.parse_safe
  case parsePayloads => exact parseChain_safe
  case unmarshalBody => exact fun t following u hu => newPayload_safe hu
  case openSK => exact fun ike hwf => hwf.openSK_safe
  case decryptSK => exact decryptSK_safe c
  case decodeSK => exact fun ike hwf => decodeSKWith_safe c hwf
  case eapParse => exact Eap.parse_safe
  case handleChallenge => exact Eap.handleChallenge_noCrash hlib
  case handleSuccess => exact Eap.handleSuccess_noCrash lib
  case classify =>
    intro datagram
    obtain ⟨r, hr⟩ := classify_ok datagram
    rw [hr]
    exact Safe.ok r
  case decrypt =>
    intro sa hsa pkt
    obtain ⟨res, replay, hdec, hres, -⟩ := hsa.decrypt c pkt
    rw [hdec]
    exact hres
  case parseTrailer => exact Esp.parseTrailer_safe

/-- Password functions that return their arguments. -/
def sampleLibrary : Eap.Library where
  generateNTResponse authChallenge peerChallenge _ _ := .ok (authChallenge ++ peerChallenge)
  toUTF16 password := .ok password
  ntPasswordHash password := password
  generateAuthenticatorResponse _ _ ntResponse _ _ := .ok ntResponse
  getMasterKey passwordHashHash _ := passwordHashHash
  getAsymmetricStartKey masterKey _ := .ok masterKey
  quote _ := ""

theorem decoders_safe_sample : DecodersSafe Crypto.sample sampleLibrary ∧
    StatesSound Crypto.sample ∧ LoopsConsume ∧ WidthsTested Crypto.sample :=
  decoders_safe Crypto.sample
    ⟨fun _ _ _ _ => Safe.ok _, fun _ => Safe.ok _, fun _ _ _ _ _ => Safe.ok _⟩

end GoIpsec.Session
