import GoIpsec.Lib.Layout
import GoIpsec.Ikemsg.RoundTrip

/-!
# Length and count fields of a message

Every length, size and count in an encoded message, compared with the octets or the items
it describes.

The encoder checks the body of each payload against the 16-bit length of its generic
header, and a proposal against its one-octet fields.  That bounds every 16-bit length
inside a payload, since it describes a part of it.  It does not bound the one-octet SPI
size of a notify or a delete, the one-octet count of traffic selectors, the count of SPIs
that are empty, or the sum of all payloads.
-/

namespace GoIpsec.Ikemsg

open Golang

/-! ## What the fields are to say -/

def TransformTrue (_ : Transform) (b : Bytes) : Prop := Says b 2 2 b.length

structure ProposalTrue (p : Proposal) (b : Bytes) : Prop where
  length : Says b 2 2 b.length
  spiSize : Says b 6 1 p.spi.length
  count : Says b 7 1 p.transforms.length
  spi : (b.drop 8).take p.spi.length = p.spi
  transforms : Laid Transform.size TransformTrue p.transforms (b.drop (8 + p.spi.length))

def SelectorTrue (_ : TrafficSelector) (b : Bytes) : Prop := Says b 2 2 b.length

structure SelectorsTrue (selectors : List TrafficSelector) (b : Bytes) : Prop where
  count : Says b 0 1 selectors.length
  selectors : Laid TrafficSelector.size SelectorTrue selectors (b.drop 4)

structure AttrTrue (attr : ConfigAttr) (b : Bytes) : Prop where
  length : Says b 2 2 attr.value.length
  value : b.drop 4 = attr.value

structure NotifyTrue (n : NotifyPayload) (b : Bytes) : Prop where
  spiSize : Says b 1 1 n.spi.length
  spi : (b.drop 4).take n.spi.length = n.spi

/-- The SPI size of a delete is that of every SPI, and 0 if there is none. -/
structure DeleteTrue (d : DeletePayload) (b : Bytes) : Prop where
  spiSize : ∀ spi ∈ d.spis, Says b 1 1 spi.length
  noSPI : d.spis = [] → Says b 1 1 0
  count : Says b 2 2 d.spis.length
  spis : b.drop 4 = d.spis.flatten

def BodyTrue : Payload → Bytes → Prop
  | .sa p, b => Laid Proposal.size ProposalTrue p.proposals b
  | .notify p, b => NotifyTrue p b
  | .delete p, b => DeleteTrue p b
  | .tsi p, b => SelectorsTrue p.selectors b
  | .tsr p, b => SelectorsTrue p.selectors b
  | .cp p, b => Laid ConfigAttr.size AttrTrue p.attributes (b.drop 4)
  | _, _ => True

structure PayloadTrue (p : Payload) (b : Bytes) : Prop where
  length : Says b 2 2 b.length
  body : BodyTrue p (b.drop 4)

/-- Every length, size and count of the message is true of what it describes. -/
structure Message.Truthful (m : Message) (raw : Bytes) : Prop where
  length : Says raw 24 4 raw.length
  payloads : Laid (fun p => genericHeaderLen + p.bodySize) PayloadTrue m.payloads (raw.drop 28)

/-! ## When they do -/

/-- What no check of the encoder bounds is within the range of its field. -/
def Payload.Fits : Payload → Prop
  | .notify p => p.spi.length ≤ 255
  | .delete p => (∀ spi ∈ p.spis, spi.length ≤ 255) ∧ p.spis.length ≤ 65535
  | .tsi p => p.selectors.length ≤ 255
  | .tsr p => p.selectors.length ≤ 255
  | _ => True

def Message.Fits (m : Message) : Prop :=
  (∀ p ∈ m.payloads, p.Fits) ∧ headerLen + m.payloads.size < 4294967296

/-! ## Parts of a payload -/

/-- A substructure that gives its own length in its third and fourth octet. -/
theorem says_own_length {x y : UInt8} {n : Nat} {r b : Bytes}
    (hb : b = [x, y] ++ (putUint16 (UInt16.ofNat n) ++ r)) (h : b.length = n) :
    Says b 2 2 b.length ↔ n < 65536 := by
  rw [h]
  exact says_uint16 hb rfl

theorem exactly_marshalTransform (t : Transform) (more : Bool) :
    Exactly (marshalTransform t more) t.size (TransformTrue t) True := by
  intro b hb
  unfold marshalTransform at hb
  split at hb
  · cases hb
  · have hattr : 8 + (if t.hasKeyLength then keyLengthAttr t.keyLength else []).length = t.size :=
      t.length_attr
    have hle := t.size_le
    dsimp only at hb
    rw [hattr, Except.ok.injEq] at hb
    have hlen : b.length = t.size := by
      rw [← hb, ← hattr]
      simp only [List.length_append, List.length_cons, List.length_nil, length_putUint16]
      omega
    exact ⟨hlen, iff_true_intro ((says_own_length hb.symm hlen).mpr (by omega))⟩

theorem exactly_marshalProposal (p : Proposal) (more : Bool) :
    Exactly (marshalProposal p more) p.size (ProposalTrue p) (p.size < 65536) := by
  intro b hb
  unfold marshalProposal at hb
  dsimp only at hb
  split at hb
  · cases hb
  rename_i hspi
  split at hb
  · cases hb
  rename_i hcount
  simp only [bind_eq_ok, pure_eq_ok, Except.ok.injEq] at hb
  obtain ⟨td, htd, hb⟩ := hb
  obtain ⟨htdlen, htrue⟩ := Exactly.writeAll exactly_marshalTransform p.transforms td htd
  have hsize : 8 + p.spi.length + td.length = p.size := by rw [htdlen, Proposal.size]
  rw [hsize] at hb
  have hlen : b.length = p.size := by
    rw [← hb, ← hsize]
    simp only [List.length_append, List.length_cons, List.length_nil, length_putUint16]
    omega
  -- the octets before the SPI
  have hfront : ∃ pre, pre.length = 6 ∧ b = pre ++ ([UInt8.ofNat p.spi.length] ++
      ([UInt8.ofNat p.transforms.length] ++ (p.spi ++ td))) :=
    ⟨[if more then 2 else 0, 0] ++ (putUint16 (UInt16.ofNat p.size) ++ [p.number, p.protocol]),
      by simp, by rw [← hb]; simp⟩
  obtain ⟨pre, hpre, hfront⟩ := hfront
  have hbody : b.drop 8 = p.spi ++ td := by
    rw [hfront, ← List.append_assoc, ← List.append_assoc, List.drop_left' (by simp [hpre])]
  refine ⟨hlen, fun h => (says_own_length hb.symm hlen).mp h.length, fun h => ⟨?_, ?_, ?_, ?_, ?_⟩⟩
  · exact (says_own_length hb.symm hlen).mpr h
  · exact (says_octet hfront hpre).mpr (by omega)
  · rw [← List.append_assoc] at hfront
    exact (says_octet hfront (by simp [hpre])).mpr (by omega)
  · rw [hbody, List.take_left]
  · rw [← List.drop_drop, hbody, List.drop_left]
    exact htrue.mpr fun _ _ => trivial

theorem exactly_marshalSelector (ts : TrafficSelector) (_ : Bool) :
    Exactly (marshalSelector ts) ts.size (SelectorTrue ts) True := by
  intro b hb
  unfold marshalSelector at hb
  dsimp only at hb
  split at hb
  · cases hb
  split at hb
  · cases hb
  rename_i halen haddr
  rw [not_or, not_ne_iff, not_ne_iff] at haddr
  have hsize : 8 + ts.startAddr.length + ts.endAddr.length = ts.size := by
    rw [haddr.1, haddr.2, TrafficSelector.size]
    omega
  have hle : ts.size ≤ 40 := by
    rw [TrafficSelector.size, addrLen]
    split <;> [skip; split] <;> omega
  rw [hsize, Except.ok.injEq] at hb
  have hlen : b.length = ts.size := by
    rw [← hb, ← hsize]
    simp only [List.length_append, List.length_cons, List.length_nil, length_putUint16]
    omega
  exact ⟨hlen, iff_true_intro ((says_own_length hb.symm hlen).mpr (by omega))⟩

theorem exactly_marshalTSBody (selectors : List TrafficSelector) :
    Exactly (marshalTSBody selectors) (selectorsSize selectors) (SelectorsTrue selectors)
      (selectors.length ≤ 255) := by
  intro b hb
  unfold marshalTSBody at hb
  split at hb
  · cases hb
  simp only [bind_eq_ok, pure_eq_ok, Except.ok.injEq] at hb
  obtain ⟨sels, hsels, rfl⟩ := hb
  obtain ⟨hlen, htrue⟩ := Exactly.writeAll exactly_marshalSelector selectors sels hsels
  have hcount : Says ([UInt8.ofNat selectors.length, 0, 0, 0] ++ sels) 0 1 selectors.length ↔
      selectors.length < 256 :=
    says_octet (p := []) (r := [0, 0, 0] ++ sels) rfl rfl
  refine ⟨?_, fun h => Nat.le_of_lt_succ (hcount.mp h.count), fun h => ⟨hcount.mpr (by omega), ?_⟩⟩
  · rw [selectorsSize, ← hlen, List.length_append]
    rfl
  · exact htrue.mpr fun _ _ => trivial

theorem exactly_marshalConfigAttr (attr : ConfigAttr) (_ : Bool) :
    Exactly (.ok (marshalConfigAttr attr)) attr.size (AttrTrue attr) (attr.value.length < 65536) := by
  intro b hb
  cases hb
  have hfield : Says (marshalConfigAttr attr) 2 2 attr.value.length ↔ attr.value.length < 65536 :=
    says_uint16 (r := attr.value) rfl (length_putUint16 _)
  refine ⟨?_, fun h => hfield.mp h.length, fun h => ⟨hfield.mpr h, rfl⟩⟩
  simp only [marshalConfigAttr, ConfigAttr.size, List.length_append, length_putUint16]
  omega

/-! ## Bodies -/

theorem notifyTrue_iff (n : NotifyPayload) :
    Exactly n.marshalBody (4 + n.spi.length + n.data.length) (NotifyTrue n) (n.spi.length ≤ 255) := by
  intro b hb
  cases hb
  have hfield : Says ([n.protocol, UInt8.ofNat n.spi.length] ++ (putUint16 n.type ++ (n.spi ++ n.data))) 1 1
      n.spi.length ↔ n.spi.length < 256 :=
    says_octet (p := [n.protocol]) (r := putUint16 n.type ++ (n.spi ++ n.data)) rfl rfl
  refine ⟨?_, fun h => Nat.le_of_lt_succ (hfield.mp h.spiSize), fun h => ⟨hfield.mpr (by omega), ?_⟩⟩
  · simp only [List.length_append, List.length_cons, List.length_nil, length_putUint16]
    omega
  · exact List.take_left

theorem deleteTrue_iff (d : DeletePayload) :
    Exactly d.marshalBody (4 + d.spis.flatten.length) (DeleteTrue d)
      ((∀ spi ∈ d.spis, spi.length ≤ 255) ∧ d.spis.length ≤ 65535) := by
  intro b hb
  unfold DeletePayload.marshalBody at hb
  split at hb
  · rename_i hwidth
    cases hb
    have hcount : Says ([d.protocol, d.spiSize] ++ (putUint16 (UInt16.ofNat d.spis.length) ++
        d.spis.flatten)) 2 2 d.spis.length ↔ d.spis.length < 65536 :=
      says_uint16 rfl rfl
    have hsize (spi : Bytes) (hspi : UInt8.ofNat spi.length = d.spiSize) :
        Says ([d.protocol, d.spiSize] ++ (putUint16 (UInt16.ofNat d.spis.length) ++ d.spis.flatten)) 1 1
          spi.length ↔ spi.length < 256 := by
      refine says_octet (p := [d.protocol])
        (r := putUint16 (UInt16.ofNat d.spis.length) ++ d.spis.flatten) ?_ rfl
      rw [hspi]
      rfl
    have heq : ∀ spi ∈ d.spis, UInt8.ofNat spi.length = d.spiSize := fun spi hspi =>
      beq_iff_eq.mp (List.all_eq_true.mp hwidth spi hspi)
    refine ⟨?_, fun h => ⟨fun spi hspi => Nat.le_of_lt_succ ((hsize spi (heq spi hspi)).mp (h.spiSize spi hspi)),
      Nat.le_of_lt_succ (hcount.mp h.count)⟩, fun h => ⟨fun spi hspi => ?_, fun hnil => ?_, ?_, ?_⟩⟩
    · simp only [List.length_append, List.length_cons, List.length_nil, length_putUint16]
      omega
    · exact (hsize spi (heq spi hspi)).mpr (Nat.lt_succ_of_le (h.1 spi hspi))
    · exact (hsize [] (by rw [DeletePayload.spiSize, hnil]; rfl)).mpr (by decide)
    · exact hcount.mpr (by omega)
    · rfl
  · cases hb

theorem configTrue_iff (p : ConfigPayload) :
    Exactly p.marshalBody p.size (fun b => Laid ConfigAttr.size AttrTrue p.attributes (b.drop 4))
      (∀ attr ∈ p.attributes, attr.value.length < 65536) := by
  intro b hb
  cases hb
  obtain ⟨hlen, htrue⟩ := Exactly.writeAll exactly_marshalConfigAttr p.attributes _
    (flatten_eq_writeAll marshalConfigAttr p.attributes)
  refine ⟨?_, htrue⟩
  rw [ConfigPayload.size, ← hlen, List.length_append]
  rfl

/-- The body of a payload has its size.  If it fits its generic header, what it says of
its parts is true just if they fit: the lengths inside it are bounded by its own. -/
theorem Payload.bodyTrue_iff {p : Payload} {b : Bytes} (hb : p.marshalBody = .ok b) :
    b.length = p.bodySize ∧ (b.length ≤ 65531 → (BodyTrue p b ↔ p.Fits)) := by
  have hexact {n : Nat} {P : Bytes → Prop} {Q : Prop} (h : Exactly p.marshalBody n P Q) :
      b.length = n ∧ (b.length ≤ 65531 → (P b ↔ Q)) :=
    (h b hb).imp_right fun h _ => h
  -- a body without fields of its own
  have hplain {n : Nat} (h : b.length = n) : b.length = n ∧ (b.length ≤ 65531 → (True ↔ True)) :=
    ⟨h, fun _ => Iff.rfl⟩
  cases p with
  | sa p =>
      obtain ⟨hlen, htrue⟩ := Exactly.writeAll exactly_marshalProposal p.proposals b hb
      refine ⟨hlen, fun hle => iff_true_intro (htrue.mpr fun q hq => ?_)⟩
      have hsum : q.size ≤ (p.proposals.map Proposal.size).sum :=
        List.le_sum_of_mem (List.mem_map_of_mem hq)
      omega
  | cp p =>
      obtain ⟨hlen, htrue⟩ := configTrue_iff p b hb
      refine ⟨hlen, fun hle => iff_true_intro (htrue.mpr fun attr hattr => ?_)⟩
      have hsum : attr.size ≤ (p.attributes.map ConfigAttr.size).sum :=
        List.le_sum_of_mem (List.mem_map_of_mem hattr)
      rw [ConfigPayload.size] at hlen
      rw [ConfigAttr.size] at hsum
      omega
  | notify p => exact hexact (notifyTrue_iff p)
  | delete p => exact hexact (deleteTrue_iff p)
  | tsi p => exact hexact (exactly_marshalTSBody p.selectors)
  | tsr p => exact hexact (exactly_marshalTSBody p.selectors)
  | ke p | idi p | idr p | auth p | cert p | certReq p =>
      cases hb
      exact hplain (by simp [bodySize, marshalIDBody, marshalCertBody]; omega)
  | nonce p | vendorID p | sk p | eap p =>
      cases hb
      exact hplain rfl

/-! ## Messages -/

theorem marshalChain_true_iff : ∀ ps : Payloads,
    Exactly (marshalChain ps) ps.size (Laid (fun p => genericHeaderLen + p.bodySize) PayloadTrue ps)
      (∀ p ∈ ps, p.Fits)
  | [] => by
      intro b hb
      cases hb
      exact ⟨rfl, by simp [Laid]⟩
  | p :: ps => by
      intro b hb
      rw [marshalChain, bind_eq_ok] at hb
      obtain ⟨body, hbody, hb⟩ := hb
      dsimp only at hb
      split at hb
      · cases hb
      rename_i hfits
      rw [genericHeaderLen] at hfits
      simp only [bind_eq_ok, pure_eq_ok, Except.ok.injEq] at hb
      obtain ⟨more, hmore, rfl⟩ := hb
      obtain ⟨hlen, htrue⟩ := Payload.bodyTrue_iff hbody
      obtain ⟨hlens, htrues⟩ := marshalChain_true_iff ps more hmore
      have hpiece : (genericHeader (nextType p ps) body.length ++ body).length =
          genericHeaderLen + p.bodySize := by
        rw [List.length_append, length_genericHeader, hlen, genericHeaderLen]
      have hpayload : PayloadTrue p (genericHeader (nextType p ps) body.length ++ body) ↔ p.Fits := by
        have hfield := says_own_length (b := genericHeader (nextType p ps) body.length ++ body)
          (r := body) (by rw [genericHeader, List.append_assoc]) (hpiece.trans (by rw [hlen]))
        have hdrop : (genericHeader (nextType p ps) body.length ++ body).drop 4 = body :=
          List.drop_left' (length_genericHeader _ _)
        refine ⟨fun h => (htrue (by omega)).mp (hdrop ▸ h.body), fun h => ⟨hfield.mpr ?_, ?_⟩⟩
        · rw [genericHeaderLen]
          omega
        · rw [hdrop]
          exact (htrue (by omega)).mpr h
      rw [← List.append_assoc, laid_cons (a := p) hpiece, hpayload, htrues, List.forall_mem_cons]
      refine ⟨?_, Iff.rfl⟩
      rw [List.length_append, hpiece, hlens, Payloads.size, Payloads.size, List.map_cons, List.sum_cons]

theorem truthful_iff_fits {m : Message} {raw : Bytes} (h : m.marshal = .ok raw) :
    m.Truthful raw ↔ m.Fits := by
  simp only [Message.marshal, Payloads.marshal, bind_eq_ok, pure_eq_ok, Except.ok.injEq] at h
  obtain ⟨⟨first, body⟩, ⟨body', hchain, hpair⟩, rfl⟩ := h
  cases hpair
  obtain ⟨hlen, htrue⟩ := marshalChain_true_iff m.payloads body hchain
  have hlength : (m.header (firstType m.payloads) body.length ++ body).length =
      headerLen + body.length := by
    rw [List.length_append, Message.length_header, headerLen]
  have hfield : Says (m.header (firstType m.payloads) body.length ++ body) 24 4
      (m.header (firstType m.payloads) body.length ++ body).length ↔
        headerLen + m.payloads.size < 4294967296 := by
    rw [hlength, ← hlen]
    exact says_uint32 (p := putUint64 m.initiatorSPI ++ (putUint64 m.responderSPI ++
      ([firstType m.payloads, version, m.exchange, m.flags] ++ putUint32 m.messageID))) (r := body)
      (by simp only [Message.header, List.append_assoc]) (by simp)
  have hdrop : (m.header (firstType m.payloads) body.length ++ body).drop 28 = body :=
    List.drop_left' (Message.length_header _ _ _)
  refine ⟨fun h => ⟨htrue.mp (hdrop ▸ h.payloads), hfield.mp h.length⟩,
    fun h => ⟨hfield.mpr h.2, ?_⟩⟩
  rw [hdrop]
  exact htrue.mpr h.1

/-! ## Errors -/

theorem Payload.marshalBody_safe (p : Payload) : Safe p.marshalBody := by
  have hselectors (ts : List TrafficSelector) : Safe (marshalTSBody ts) := by
    unfold marshalTSBody
    split
    · exact Safe.fail _
    · refine (Safe.writeAll (fun ts _ => ?_) ts).bind fun _ _ => Safe.ok _
      unfold marshalSelector
      dsimp only
      split
      · exact Safe.fail _
      · split
        · exact Safe.fail _
        · exact Safe.ok _
  cases p with
  | sa p =>
      refine Safe.writeAll (fun q more => ?_) p.proposals
      unfold marshalProposal
      dsimp only
      split
      · exact Safe.fail _
      split
      · exact Safe.fail _
      refine (Safe.writeAll (fun t more => ?_) q.transforms).bind fun _ _ => Safe.ok _
      unfold marshalTransform
      split
      · exact Safe.fail _
      · exact Safe.ok _
  | delete p =>
      change Safe (DeletePayload.marshalBody p)
      unfold DeletePayload.marshalBody
      split
      · exact Safe.ok _
      · exact Safe.fail _
  | tsi p => exact hselectors p.selectors
  | tsr p => exact hselectors p.selectors
  | _ => exact Safe.ok _

theorem marshalChain_safe : ∀ ps : Payloads, Safe (marshalChain ps)
  | [] => Safe.ok []
  | p :: ps => by
      refine p.marshalBody_safe.bind fun body _ => ?_
      dsimp only
      split
      · exact Safe.fail _
      · exact (marshalChain_safe ps).bind fun _ _ => Safe.ok _

/-- A message is encoded or an error is returned.  If it is encoded, every length, size and
count of it is true just if the message fits. -/
theorem marshal_truthful_iff (m : Message) :
    Safe m.marshal ∧ ∀ raw, m.marshal = .ok raw → (m.Truthful raw ↔ m.Fits) :=
  ⟨((marshalChain_safe m.payloads).bind fun _ _ => Safe.ok _).bind fun _ _ => Safe.ok _,
    fun _ h => truthful_iff_fits h⟩

/-- A notify with an SPI of `n` octets. -/
def sampleNotify (n : Nat) : Message :=
  { sampleMessage with
    payloads := [.notify { protocol := protocolESP, type := notifyRekeySA, spi := List.replicate n 1 }] }

theorem marshal_truthful_iff_sample :
    ∃ raw, (sampleNotify 4).marshal = .ok raw ∧ (sampleNotify 4).Truthful raw := by
  refine ⟨_, rfl, ((marshal_truthful_iff (sampleNotify 4)).2 _ rfl).mpr ⟨?_, by decide⟩⟩
  intro p hp
  cases List.mem_singleton.mp hp
  exact Nat.le_of_ble_eq_true rfl

/-- An SPI of 256 octets is encoded with an SPI size of 0. -/
theorem notify_spi_size_wraps :
    ∃ raw, (sampleNotify 256).marshal = .ok raw ∧ Says (raw.drop 32) 1 1 0 ∧
      ¬ (sampleNotify 256).Truthful raw := by
  refine ⟨valueD (sampleNotify 256).marshal [], by decide +kernel, by decide +kernel, fun h => ?_⟩
  exact absurd h.payloads.1.body.spiSize (by decide +kernel)

end GoIpsec.Ikemsg
