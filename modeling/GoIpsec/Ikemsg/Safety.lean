import GoIpsec.Ikemsg.RoundTrip

/-!
# Decoding does not crash

Every octet string decodes to a message or to an error.  The readers test the
lengths they are about to use, so no slice expression is out of range, and each
turn of a loop takes at least one octet, so no loop runs for ever.

A proof here walks through a reader and meets each of its slices with the test
that covers it.
-/

namespace GoIpsec.Ikemsg

open Golang

/-! ## Security association payloads -/

theorem parseAttr_safe (tlen : Nat) (attrs : Bytes) : Safe (parseAttr tlen attrs) := by
  unfold parseAttr
  split
  · exact Safe.fail _
  refine Safe.slice_bind (by omega) (by omega) fun r hr => ?_
  refine Safe.uint16_bind (by omega) fun af => ?_
  dsimp only
  split
  · refine Safe.slice_bind (by omega) (by omega) fun r hr => ?_
    refine Safe.uint16_bind (by omega) fun v => ?_
    exact Safe.sliceFrom_bind (by omega) fun rest _ => Safe.ok _
  · refine Safe.slice_bind (by omega) (by omega) fun r hr => ?_
    refine Safe.uint16_bind (by omega) fun alen => ?_
    split
    · exact Safe.fail _
    · exact Safe.sliceFrom_bind (by omega) fun rest _ => Safe.ok _

theorem parseTransform_safe (body : Bytes) : Safe (parseTransform body) := by
  unfold parseTransform
  split
  · exact Safe.fail _
  refine Safe.slice_bind (by omega) (by omega) fun r hr => ?_
  refine Safe.uint16_bind (by omega) fun tlen => ?_
  dsimp only
  split
  · exact Safe.fail _
  split
  · exact Safe.fail _
  refine Safe.index_bind (by omega) fun type => ?_
  refine Safe.slice_bind (by omega) (by omega) fun r hr => ?_
  refine Safe.uint16_bind (by omega) fun id => ?_
  refine Safe.slice_bind (by omega) (by omega) fun r hr => ?_
  refine (Safe.readAll (parseAttr_consumes _) (parseAttr_safe _) r).bind fun attrs _ => ?_
  refine Safe.sliceFrom_bind (by omega) fun rest _ => ?_
  split
  · exact Safe.ok _
  · exact Safe.ok _

theorem parseTransforms_safe (body : Bytes) : Safe (parseTransforms body) :=
  Safe.readAll parseTransform_consumes parseTransform_safe body

theorem parseProposal_safe (body : Bytes) : Safe (parseProposal body) := by
  unfold parseProposal
  split
  · exact Safe.fail _
  refine Safe.slice_bind (by omega) (by omega) fun r hr => ?_
  refine Safe.uint16_bind (by omega) fun plen => ?_
  dsimp only
  split
  · exact Safe.fail _
  split
  · exact Safe.fail _
  refine Safe.index_bind (by omega) fun spiSize => ?_
  split
  · exact Safe.fail _
  refine Safe.index_bind (by omega) fun number => ?_
  refine Safe.index_bind (by omega) fun protocol => ?_
  refine Safe.slice_bind (by omega) (by omega) fun spi _ => ?_
  refine Safe.slice_bind (by omega) (by omega) fun r _ => ?_
  refine (parseTransforms_safe r).bind fun transforms _ => ?_
  exact Safe.sliceFrom_bind (by omega) fun rest _ => Safe.ok _

theorem SAPayload.unmarshalBody_safe (body : Bytes) : Safe (SAPayload.unmarshalBody body) :=
  (Safe.readAll parseProposal_consumes parseProposal_safe body).bind fun _ _ => Safe.ok _

/-! ## Payloads of one header and opaque data -/

theorem KEPayload.unmarshalBody_safe (body : Bytes) : Safe (KEPayload.unmarshalBody body) := by
  unfold KEPayload.unmarshalBody
  split
  · exact Safe.fail _
  refine Safe.slice_bind (by omega) (by omega) fun r hr => ?_
  refine Safe.uint16_bind (by omega) fun group => ?_
  exact Safe.sliceFrom_bind (by omega) fun data _ => Safe.ok _

theorem NoncePayload.unmarshalBody_safe (body : Bytes) :
    Safe (NoncePayload.unmarshalBody body) := by
  unfold NoncePayload.unmarshalBody
  dsimp only
  split
  · exact Safe.fail _
  · exact Safe.ok _

theorem parseIDBody_safe (what : String) (body : Bytes) : Safe (parseIDBody what body) := by
  unfold parseIDBody
  split
  · exact Safe.fail _
  refine Safe.index_bind (by omega) fun idType => ?_
  exact Safe.sliceFrom_bind (by omega) fun data _ => Safe.ok _

theorem parseCertBody_safe (what : String) (body : Bytes) : Safe (parseCertBody what body) := by
  unfold parseCertBody
  split
  · exact Safe.fail _
  refine Safe.index_bind (by omega) fun encoding => ?_
  exact Safe.sliceFrom_bind (by omega) fun data _ => Safe.ok _

/-! ## Notify and delete -/

theorem NotifyPayload.unmarshalBody_safe (body : Bytes) :
    Safe (NotifyPayload.unmarshalBody body) := by
  unfold NotifyPayload.unmarshalBody
  split
  · exact Safe.fail _
  refine Safe.index_bind (by omega) fun spiSize => ?_
  dsimp only
  split
  · exact Safe.fail _
  refine Safe.index_bind (by omega) fun protocol => ?_
  refine Safe.slice_bind (by omega) (by omega) fun r hr => ?_
  refine Safe.uint16_bind (by omega) fun type => ?_
  refine Safe.slice_bind (by omega) (by omega) fun spi _ => ?_
  exact Safe.sliceFrom_bind (by omega) fun data _ => Safe.ok _

theorem parseSPI_safe (size : Nat) (b : Bytes) (h : size ≤ b.length) : Safe (parseSPI size b) := by
  unfold parseSPI
  refine Safe.slice_bind (by omega) (by omega) fun spi _ => ?_
  exact Safe.sliceFrom_bind (by omega) fun rest _ => Safe.ok _

theorem length_of_parseSPI {size : Nat} {b spi rest : Bytes}
    (h : parseSPI size b = .ok (spi, rest)) : b.length ≤ size + rest.length := by
  simp only [parseSPI, bind_eq_ok, pure_eq_ok, Except.ok.injEq, Prod.mk.injEq] at h
  obtain ⟨_, _, r, hr, -, rfl⟩ := h
  obtain ⟨hle, rfl⟩ := sliceFrom_eq_ok hr
  rw [List.length_drop]
  omega

theorem DeletePayload.unmarshalBody_safe (body : Bytes) :
    Safe (DeletePayload.unmarshalBody body) := by
  unfold DeletePayload.unmarshalBody
  split
  · exact Safe.fail _
  refine Safe.index_bind (by omega) fun protocol => ?_
  refine Safe.index_bind (by omega) fun size => ?_
  refine Safe.slice_bind (by omega) (by omega) fun r hr => ?_
  refine Safe.uint16_bind (by omega) fun count => ?_
  dsimp only
  split
  · exact Safe.fail _
  split
  · exact Safe.fail _
  refine Safe.sliceFrom_bind (by omega) fun rest hrest => ?_
  have hfits : size.toNat * count.toNat ≤ rest.length := by omega
  exact (Safe.readN (parseSPI_safe _) (fun _ _ _ h => .inl (length_of_parseSPI h)) _ rest hfits).bind
    fun _ _ => Safe.ok _

/-! ## Traffic selectors and configuration -/

theorem parseSelector_safe (rest : Bytes) : Safe (parseSelector rest) := by
  unfold parseSelector
  split
  · exact Safe.fail _
  refine Safe.index_bind (by omega) fun tsType => ?_
  dsimp only
  split
  · exact Safe.fail _
  refine Safe.slice_bind (by omega) (by omega) fun r hr => ?_
  refine Safe.uint16_bind (by omega) fun selLen => ?_
  split
  · exact Safe.fail _
  split
  · exact Safe.fail _
  refine Safe.index_bind (by omega) fun protocol => ?_
  refine Safe.slice_bind (by omega) (by omega) fun r hr => ?_
  refine Safe.uint16_bind (by omega) fun startPort => ?_
  refine Safe.slice_bind (by omega) (by omega) fun r hr => ?_
  refine Safe.uint16_bind (by omega) fun endPort => ?_
  refine Safe.slice_bind (by omega) (by omega) fun startAddr _ => ?_
  refine Safe.slice_bind (by omega) (by omega) fun endAddr _ => ?_
  exact Safe.sliceFrom_bind (by omega) fun more _ => Safe.ok _

theorem parseTSBody_safe (body : Bytes) : Safe (parseTSBody body) := by
  unfold parseTSBody
  split
  · exact Safe.fail _
  refine Safe.index_bind (by omega) fun count => ?_
  dsimp only
  split
  · exact Safe.fail _
  refine Safe.sliceFrom_bind (by omega) fun rest hrest => ?_
  -- a selector tests its own length, so nothing is asked of what is left
  refine (Safe.readN (fun b _ => parseSelector_safe b) (fun _ _ _ _ => .inr rfl) _ rest
    (by omega)).bind fun r _ => ?_
  split
  · exact Safe.fail _
  · exact Safe.ok _

theorem parseConfigAttr_safe (rest : Bytes) : Safe (parseConfigAttr rest) := by
  unfold parseConfigAttr
  split
  · exact Safe.fail _
  refine Safe.slice_bind (by omega) (by omega) fun r hr => ?_
  refine Safe.uint16_bind (by omega) fun attrType => ?_
  refine Safe.slice_bind (by omega) (by omega) fun r hr => ?_
  refine Safe.uint16_bind (by omega) fun length => ?_
  dsimp only
  split
  · exact Safe.fail _
  refine Safe.slice_bind (by omega) (by omega) fun value _ => ?_
  exact Safe.sliceFrom_bind (by omega) fun more _ => Safe.ok _

theorem ConfigPayload.unmarshalBody_safe (body : Bytes) :
    Safe (ConfigPayload.unmarshalBody body) := by
  unfold ConfigPayload.unmarshalBody
  split
  · exact Safe.fail _
  refine Safe.index_bind (by omega) fun cfgType => ?_
  refine Safe.sliceFrom_bind (by omega) fun rest _ => ?_
  exact (Safe.readAll parseConfigAttr_consumes parseConfigAttr_safe rest).bind fun _ _ => Safe.ok _

/-! ## Messages -/

theorem newPayload_safe {t following : PayloadType} {u : Bytes → Go Payload}
    (hu : newPayload t following = some u) (body : Bytes) : Safe (u body) := by
  have hstep {k : PayloadType} {f : Bytes → Go Payload} {rest : Option (Bytes → Go Payload)}
      (hf : Safe (f body)) (h : (if t = k then some f else rest) = some u)
      (hrest : rest = some u → Safe (u body)) : Safe (u body) := by
    split at h
    · exact Option.some.inj h ▸ hf
    · exact hrest h
  refine hstep ((SAPayload.unmarshalBody_safe body).map _) hu fun hu => ?_
  refine hstep ((KEPayload.unmarshalBody_safe body).map _) hu fun hu => ?_
  refine hstep (((parseIDBody_safe _ body).bind fun _ _ => Safe.ok _).map _) hu fun hu => ?_
  refine hstep (((parseIDBody_safe _ body).bind fun _ _ => Safe.ok _).map _) hu fun hu => ?_
  refine hstep (((parseCertBody_safe _ body).bind fun _ _ => Safe.ok _).map _) hu fun hu => ?_
  refine hstep (((parseCertBody_safe _ body).bind fun _ _ => Safe.ok _).map _) hu fun hu => ?_
  refine hstep (((parseIDBody_safe _ body).bind fun _ _ => Safe.ok _).map _) hu fun hu => ?_
  refine hstep ((NoncePayload.unmarshalBody_safe body).map _) hu fun hu => ?_
  refine hstep ((NotifyPayload.unmarshalBody_safe body).map _) hu fun hu => ?_
  refine hstep ((DeletePayload.unmarshalBody_safe body).map _) hu fun hu => ?_
  refine hstep ((Safe.ok _).map _) hu fun hu => ?_
  refine hstep (((parseTSBody_safe body).bind fun _ _ => Safe.ok _).map _) hu fun hu => ?_
  refine hstep (((parseTSBody_safe body).bind fun _ _ => Safe.ok _).map _) hu fun hu => ?_
  refine hstep ((Safe.ok _).map _) hu fun hu => ?_
  refine hstep ((ConfigPayload.unmarshalBody_safe body).map _) hu fun hu => ?_
  exact hstep ((Safe.ok _).map _) hu nofun

theorem parsePayload_safe (next : PayloadType) (body : Bytes) : Safe (parsePayload next body) := by
  unfold parsePayload
  split
  · exact Safe.fail _
  rename_i hlen
  rw [genericHeaderLen] at hlen
  refine Safe.index_bind (by omega) fun following => ?_
  refine Safe.index_bind (by omega) fun flags => ?_
  refine Safe.slice_bind (by omega) (by omega) fun r hr => ?_
  refine Safe.uint16_bind (by omega) fun plen => ?_
  dsimp only
  split
  · exact Safe.fail _
  split
  · exact Safe.fail _
  split
  · split
    · exact Safe.fail _
    · exact Safe.sliceFrom_bind (by omega) fun rest _ => Safe.ok _
  · rename_i u hu
    refine Safe.slice_bind (by omega) (by omega) fun b _ => ?_
    refine (Safe.wrapErr _ (newPayload_safe hu b)).bind fun p _ => ?_
    exact Safe.sliceFrom_bind (by omega) fun rest _ => Safe.ok _

theorem parseChain_safe (first : PayloadType) (body : Bytes) : Safe (parseChain first body) :=
  Safe.many consumes_parsePayload parsePayload_safe first body

/-- Any octets decode to a message or to an error. -/
theorem parse_safe (raw : Bytes) : Safe (parse raw) := by
  unfold parse
  split
  · exact Safe.fail _
  rename_i hlen
  rw [headerLen] at hlen
  refine Safe.slice_bind (by omega) (by omega) fun r hr => ?_
  refine Safe.uint32_bind (by omega) fun length => ?_
  dsimp only
  split
  · exact Safe.fail _
  split
  · exact Safe.fail _
  refine Safe.slice_bind (by omega) (by omega) fun r hr => ?_
  refine Safe.uint64_bind (by omega) fun initiatorSPI => ?_
  refine Safe.slice_bind (by omega) (by omega) fun r hr => ?_
  refine Safe.uint64_bind (by omega) fun responderSPI => ?_
  refine Safe.index_bind (by omega) fun exchange => ?_
  refine Safe.index_bind (by omega) fun flags => ?_
  refine Safe.slice_bind (by omega) (by omega) fun r hr => ?_
  refine Safe.uint32_bind (by omega) fun messageID => ?_
  refine Safe.index_bind (by omega) fun first => ?_
  refine Safe.sliceFrom_bind (by rw [headerLen]; omega) fun body _ => ?_
  exact (parseChain_safe first body).bind fun _ _ => Safe.ok _

end GoIpsec.Ikemsg
