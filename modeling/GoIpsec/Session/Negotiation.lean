import GoIpsec.Session.Suite

/-!
# Negotiation

What the two matchers of `Suite` mean.  A proposal of a peer that initiates *offers* a
suite when each transform the suite needs is among its alternatives.  A proposal of a
peer that responds is *narrowed* to a suite when those transforms are all there is of
their types.

The only Encr transform of a narrowed proposal tells the suite, since no two rows of a
table share it.  So the order of the enabled suites does not matter to the initiator,
and what the responder answers is read back as the suite it chose.
-/

namespace GoIpsec.Session

open Golang Ikemsg

/-- The Key Length attribute a suite with `n` key bits asks for: none if `n` is 0. -/
def HasKeyBits (t : Transform) (n : UInt16) : Prop :=
  if n = 0 then t.hasKeyLength = false else t.hasKeyLength = true ∧ t.keyLength = n

/-- The proposal has a transform of this type and identifier. -/
def Lists (p : Proposal) (ty : TransformType) (id : UInt16) : Prop :=
  ∃ t ∈ p.transforms, t.type = ty ∧ t.id = id

/-- The proposal has one transform of this type, with this identifier. -/
def ListsOnly (p : Proposal) (ty : TransformType) (id : UInt16) : Prop :=
  ∃ t, p.byType ty = [t] ∧ t.id = id

section

variable {ID : Type} [SuiteID ID]

/-- The proposal has all the suite needs, and perhaps more. -/
structure Offers (s : TransformSuite ID) (p : Proposal) : Prop where
  protocol : p.protocol = s.protocol
  encr : ∃ t ∈ p.transforms, t.type = transformEncr ∧ t.id = s.encrID ∧ HasKeyBits t s.keyBits
  prf : s.protocol = protocolIKE → Lists p transformPRF prfHMACSHA2256
  integ : if s.aead then p.byType transformInteg = [] ∨ Lists p transformInteg authNone
    else Lists p transformInteg s.integID
  esn : s.protocol = protocolESP → Lists p transformESN esnNone

/-- The proposal is one a responder that runs the suite can choose. -/
structure Acceptable (s : TransformSuite ID) (group : UInt16) (p : Proposal) : Prop where
  offers : Offers s p
  spi : p.spi.length = s.spiLen
  dh : group ≠ 0 → Lists p transformDH group

/-- The proposal has what the suite needs and no alternative to it. -/
structure Narrowed (s : TransformSuite ID) (p : Proposal) : Prop where
  protocol : p.protocol = s.protocol
  encr : ∃ t, p.byType transformEncr = [t] ∧ t.id = s.encrID ∧ HasKeyBits t s.keyBits
  prf : s.protocol = protocolIKE → ListsOnly p transformPRF prfHMACSHA2256
  integ : if s.aead then p.byType transformInteg = [] ∨ ListsOnly p transformInteg authNone
    else ListsOnly p transformInteg s.integID
  esn : s.protocol = protocolESP → ListsOnly p transformESN esnNone
  dh : (p.byType transformDH).length ≤ 1

/-! ## What the matchers decide -/

theorem mem_byType {p : Proposal} {ty : TransformType} {t : Transform} :
    t ∈ p.byType ty ↔ t ∈ p.transforms ∧ t.type = ty := by
  rw [Proposal.byType, List.mem_filter, beq_iff_eq]

theorem hasTransform_iff {p : Proposal} {ty : TransformType} {id : UInt16} :
    hasTransform (p.byType ty) id none = true ↔ Lists p ty id := by
  simp only [hasTransform, Lists, List.any_eq_true, mem_byType, Bool.and_true, beq_iff_eq, and_assoc]

theorem hasTransform_keyBits_iff {p : Proposal} {ty : TransformType} {id n : UInt16} :
    hasTransform (p.byType ty) id (some n) = true ↔
      ∃ t ∈ p.transforms, t.type = ty ∧ t.id = id ∧ HasKeyBits t n := by
  simp only [hasTransform, HasKeyBits, List.any_eq_true, mem_byType, Bool.and_eq_true, beq_iff_eq,
    and_assoc]
  refine exists_congr fun t => and_congr_right' (and_congr_right' (and_congr_right' ?_))
  split
  · rw [Bool.not_eq_true']
  · rw [Bool.and_eq_true, beq_iff_eq]

theorem suiteMatches_iff {s : TransformSuite ID} {p : Proposal} :
    suiteMatches s p = true ↔ Offers s p := by
  have hinteg : (if s.aead then (p.byType transformInteg).length == 0 ||
        hasTransform (p.byType transformInteg) authNone none
      else hasTransform (p.byType transformInteg) s.integID none) = true ↔
      if s.aead then p.byType transformInteg = [] ∨ Lists p transformInteg authNone
      else Lists p transformInteg s.integID := by
    split
    · rw [Bool.or_eq_true, beq_iff_eq, List.length_eq_zero_iff, hasTransform_iff]
    · exact hasTransform_iff
  simp only [suiteMatches, Bool.and_eq_true, Bool.or_eq_true, beq_iff_eq, bne_iff_ne, ne_eq,
    ← imp_iff_not_or, hinteg, hasTransform_iff, hasTransform_keyBits_iff]
  exact ⟨fun ⟨⟨⟨⟨h₁, h₂⟩, h₃⟩, h₄⟩, h₅⟩ => ⟨h₁, h₂, h₃, h₄, h₅⟩,
    fun ⟨h₁, h₂, h₃, h₄, h₅⟩ => ⟨⟨⟨⟨h₁, h₂⟩, h₃⟩, h₄⟩, h₅⟩⟩

theorem acceptable_iff {s : TransformSuite ID} {group : UInt16} {p : Proposal} :
    (suiteMatches s p && p.spi.length == s.spiLen &&
      (group == 0 || proposalHasDHGroup p group)) = true ↔ Acceptable s group p := by
  simp only [Bool.and_eq_true, Bool.or_eq_true, beq_iff_eq, suiteMatches_iff, proposalHasDHGroup,
    hasTransform_iff, or_iff_not_imp_left]
  exact ⟨fun ⟨⟨h₁, h₂⟩, h₃⟩ => ⟨h₁, h₂, h₃⟩, fun ⟨h₁, h₂, h₃⟩ => ⟨⟨h₁, h₂⟩, h₃⟩⟩

/-- Among one transform, presence is selection. -/
theorem listsOnly_iff {p : Proposal} {ty : TransformType} {id : UInt16} :
    ListsOnly p ty id ↔ Lists p ty id ∧ (p.byType ty).length = 1 := by
  constructor
  · rintro ⟨t, ht, hid⟩
    have hmem := mem_byType.mp (ht ▸ List.mem_singleton_self t)
    exact ⟨⟨t, hmem.1, hmem.2, hid⟩, by rw [ht, List.length_singleton]⟩
  · rintro ⟨⟨t, ht, hty, hid⟩, hlen⟩
    obtain ⟨u, hu⟩ := List.length_eq_one_iff.mp hlen
    cases List.mem_singleton.mp (hu ▸ mem_byType.mpr ⟨ht, hty⟩)
    exact ⟨t, hu, hid⟩

theorem isSelectionFor_iff {s : TransformSuite ID} {p : Proposal} :
    isSelectionFor s p = true ↔ Narrowed s p := by
  have hinteg : _ ↔
      if s.aead then p.byType transformInteg = [] ∨ ListsOnly p transformInteg authNone
      else (p.byType transformInteg).length = 1 := selectsInteg_iff
  simp only [isSelectionFor, suiteMatches_iff, Bool.and_eq_true, Bool.or_eq_true, beq_iff_eq,
    bne_iff_ne, ne_eq, ← imp_iff_not_or, decide_eq_true_iff]
  refine (and_congr_right' hinteg).trans ⟨?_, ?_⟩
  · rintro ⟨⟨⟨⟨⟨ho, hencr⟩, hdh⟩, hprf⟩, hesn⟩, hint⟩
    refine ⟨ho.protocol, ?_, fun h => listsOnly_iff.mpr ⟨ho.prf h, hprf h⟩, ?_,
      fun h => listsOnly_iff.mpr ⟨ho.esn h, hesn h⟩, hdh⟩
    · obtain ⟨t, ht, hty, hid, hkey⟩ := ho.encr
      obtain ⟨u, hu⟩ := List.length_eq_one_iff.mp hencr
      cases List.mem_singleton.mp (hu ▸ mem_byType.mpr ⟨ht, hty⟩)
      exact ⟨t, hu, hid, hkey⟩
    · have hoff := ho.integ
      by_cases haead : s.aead = true
      · rw [if_pos haead] at hint ⊢
        exact hint
      · rw [if_neg haead] at hint hoff ⊢
        exact listsOnly_iff.mpr ⟨hoff, hint⟩
  · rintro ⟨hproto, ⟨t, ht, hid, hkey⟩, hprf, hint, hesn, hdh⟩
    have hmem := mem_byType.mp (ht ▸ List.mem_singleton_self t)
    refine ⟨⟨⟨⟨⟨⟨hproto, ⟨t, hmem.1, hmem.2, hid, hkey⟩, fun h => (listsOnly_iff.mp (hprf h)).1, ?_,
      fun h => (listsOnly_iff.mp (hesn h)).1⟩, by rw [ht, List.length_singleton]⟩, hdh⟩,
      fun h => (listsOnly_iff.mp (hprf h)).2⟩, fun h => (listsOnly_iff.mp (hesn h)).2⟩, ?_⟩
    · by_cases haead : s.aead = true
      · rw [if_pos haead] at hint ⊢
        exact hint.imp_right fun h => (listsOnly_iff.mp h).1
      · rw [if_neg haead] at hint ⊢
        exact (listsOnly_iff.mp hint).1
    · by_cases haead : s.aead = true
      · rw [if_pos haead] at hint ⊢
        exact hint
      · rw [if_neg haead] at hint ⊢
        exact (listsOnly_iff.mp hint).2

/-! ## A selection tells its suite -/

/-- No two rows are offered by the same Encr transform. -/
def DistinctEncr (table : List (TransformSuite ID)) : Prop :=
  ∀ s ∈ table, ∀ t ∈ table, t.encrID = s.encrID → t = s

variable {table : List (TransformSuite ID)}

theorem Narrowed.unique {s t : TransformSuite ID} {p : Proposal} (hdistinct : DistinctEncr table)
    (hs : s ∈ table) (ht : t ∈ table) (hps : Narrowed s p) (hpt : Narrowed t p) : t = s := by
  obtain ⟨u, hu, hsu, -⟩ := hps.encr
  obtain ⟨v, hv, htv, -⟩ := hpt.encr
  cases List.singleton_inj.mp (hu.symm.trans hv)
  exact hdistinct s hs t ht (htv.symm.trans hsu)

/-- The selected suite is the enabled one the proposal is narrowed to. -/
theorem selectedSuite_iff_narrowed {enabled : List (TransformSuite ID)} {p : Proposal}
    {s : TransformSuite ID} (hdistinct : DistinctEncr table) (hrows : ∀ t ∈ enabled, t ∈ table) :
    selectedSuite p enabled = some s ↔ s ∈ enabled ∧ Narrowed s p := by
  constructor
  · intro h
    exact (mem_of_selectedSuite h).imp_right isSelectionFor_iff.mp
  · rintro ⟨hs, hp⟩
    cases hsel : selectedSuite p enabled with
    | none =>
        have hnone := List.find?_eq_none.mp hsel s hs
        exact absurd (isSelectionFor_iff.mpr hp) hnone
    | some t =>
        obtain ⟨ht, htp⟩ := mem_of_selectedSuite hsel
        rw [Narrowed.unique hdistinct (hrows s hs) (hrows t ht) hp (isSelectionFor_iff.mp htp)]

/-- What a table owes to those who read a selection back. -/
structure Decisive (table : List (TransformSuite ID)) : Prop where
  /-- Neither order nor multiplicity of the enabled rows matters. -/
  order : ∀ p enabled enabled', (∀ s ∈ enabled, s ∈ table) → (∀ s, s ∈ enabled ↔ s ∈ enabled') →
    selectedSuite p enabled = selectedSuite p enabled'
  /-- A proposal selects at most one row. -/
  unique : ∀ p, ∀ s ∈ table, ∀ t ∈ table,
    isSelectionFor s p = true → isSelectionFor t p = true → t = s
  /-- An accepted proposal has one transform per type. -/
  shape : ∀ p (enabled : List (TransformSuite ID)) s, selectedSuite p enabled = some s → Narrowed s p

theorem DistinctEncr.decisive (hdistinct : DistinctEncr table) : Decisive table where
  order := by
    intro p enabled enabled' hrows hsame
    have hrows' : ∀ s ∈ enabled', s ∈ table := fun s hs => hrows s ((hsame s).mpr hs)
    refine Option.ext fun s => ?_
    rw [selectedSuite_iff_narrowed hdistinct hrows, selectedSuite_iff_narrowed hdistinct hrows', hsame]
  unique p s hs t ht hps hpt :=
    Narrowed.unique hdistinct hs ht (isSelectionFor_iff.mp hps) (isSelectionFor_iff.mp hpt)
  shape _ _ _ h := isSelectionFor_iff.mp (mem_of_selectedSuite h).2

theorem distinctEncr_espSuites : DistinctEncr espSuites := by unfold DistinctEncr; decide

theorem distinctEncr_ikeSuites : DistinctEncr ikeSuites := by unfold DistinctEncr; decide

/-- A selection determines its suite, for ESP and for the IKE envelope. -/
theorem selection_decisive : Decisive espSuites ∧ Decisive ikeSuites :=
  ⟨distinctEncr_espSuites.decisive, distinctEncr_ikeSuites.decisive⟩

/-! ## What the responder answers -/

/-- The groups of an answer: the one asked for, if any. -/
def answerGroups (group : UInt16) : List UInt16 := if group = 0 then [] else [group]

/-- The answer has the transform of an offer: the same type and identifier, and for Encr the
same Key Length. -/
structure SameTransform (t u : Transform) : Prop where
  type : u.type = t.type
  id : u.id = t.id
  presence : t.type = transformEncr → u.hasKeyLength = t.hasKeyLength
  keyLength : t.type = transformEncr → t.hasKeyLength = true → u.keyLength = t.keyLength

theorem nodup_types_build (number : UInt8) (s : TransformSuite ID) (spi : Bytes) (group : UInt16) :
    ((buildProposalForSuite number s spi (answerGroups group)).transforms.map Transform.type).Nodup := by
  unfold buildProposalForSuite answerGroups
  by_cases hike : s.protocol = protocolIKE <;> by_cases haead : s.aead = true <;>
    by_cases hg : group = 0 <;> by_cases hesp : s.protocol = protocolESP <;>
    simp [hike, haead, hg, hesp] <;> decide

theorem length_byType_le_one {p : Proposal} (h : (p.transforms.map Transform.type).Nodup)
    (ty : TransformType) : (p.byType ty).length ≤ 1 := by
  have hcount := List.nodup_iff_count_le_one.mp h ty
  rwa [List.count, List.countP_map, List.countP_eq_length_filter] at hcount

theorem mem_build {number : UInt8} {s : TransformSuite ID} {spi : Bytes} {group : UInt16}
    {t : Transform} :
    t ∈ (buildProposalForSuite number s spi (answerGroups group)).transforms ↔
      t = { type := transformEncr, id := s.encrID, keyLength := s.keyBits,
            hasKeyLength := s.keyBits != 0 } ∨
      (s.protocol = protocolIKE ∧ t = { type := transformPRF, id := prfHMACSHA2256 }) ∨
      (¬s.aead = true ∧ t = { type := transformInteg, id := s.integID }) ∨
      (group ≠ 0 ∧ t = { type := transformDH, id := group }) ∨
      (s.protocol = protocolESP ∧ t = { type := transformESN, id := esnNone }) := by
  simp only [buildProposalForSuite, answerGroups, List.mem_append, List.mem_singleton]
  refine or_congr Iff.rfl (or_congr ?_ (or_congr ?_ (or_congr ?_ ?_)))
  · by_cases h : s.protocol = protocolIKE <;> simp [h]
  · by_cases h : s.aead = true <;> simp [h]
  · by_cases h : group = 0 <;> simp [h]
  · by_cases h : s.protocol = protocolESP <;> simp [h]

theorem byType_build {number : UInt8} {s : TransformSuite ID} {spi : Bytes} {group : UInt16}
    {t : Transform} (ht : t ∈ (buildProposalForSuite number s spi (answerGroups group)).transforms) :
    (buildProposalForSuite number s spi (answerGroups group)).byType t.type = [t] := by
  have hmem := mem_byType.mpr ⟨ht, rfl⟩
  have hone := length_byType_le_one (nodup_types_build number s spi group) t.type
  obtain ⟨u, hu⟩ := List.length_eq_one_iff.mp (Nat.le_antisymm hone (List.length_pos_of_mem hmem))
  rw [hu] at hmem ⊢
  rw [List.mem_singleton.mp hmem]

theorem byType_integ_build {number : UInt8} {s : TransformSuite ID} {spi : Bytes} {group : UInt16}
    (haead : s.aead = true) :
    (buildProposalForSuite number s spi (answerGroups group)).byType transformInteg = [] := by
  refine List.eq_nil_iff_forall_not_mem.mpr fun t ht => ?_
  obtain ⟨ht, hty⟩ := mem_byType.mp ht
  rcases mem_build.mp ht with rfl | ⟨-, rfl⟩ | ⟨hinteg, -⟩ | ⟨-, rfl⟩ | ⟨-, rfl⟩
  · cases hty
  · cases hty
  · exact hinteg haead
  · cases hty
  · cases hty

theorem byType_dh_build {number : UInt8} {s : TransformSuite ID} {spi : Bytes} {group : UInt16} :
    ((buildProposalForSuite number s spi (answerGroups group)).byType transformDH).map Transform.id =
      answerGroups group := by
  by_cases hgroup : group = 0
  · have hnone :
        (buildProposalForSuite number s spi (answerGroups group)).byType transformDH = [] := by
      refine List.eq_nil_iff_forall_not_mem.mpr fun t ht => ?_
      obtain ⟨ht, hty⟩ := mem_byType.mp ht
      rcases mem_build.mp ht with rfl | ⟨-, rfl⟩ | ⟨-, rfl⟩ | ⟨hne, -⟩ | ⟨-, rfl⟩
      · cases hty
      · cases hty
      · cases hty
      · exact hne hgroup
      · cases hty
    rw [hnone, answerGroups, if_pos hgroup, List.map_nil]
  · rw [byType_build (mem_build.mpr (.inr (.inr (.inr (.inl ⟨hgroup, rfl⟩))))), answerGroups,
      if_neg hgroup, List.map_singleton]

/-- The answer is narrowed to the suite it was built for. -/
theorem narrowed_build (number : UInt8) (s : TransformSuite ID) (spi : Bytes) (group : UInt16) :
    Narrowed s (buildProposalForSuite number s spi (answerGroups group)) where
  protocol := rfl
  encr := by
    refine ⟨_, byType_build (mem_build.mpr (.inl rfl)), rfl, ?_⟩
    unfold HasKeyBits
    split
    · rename_i hbits
      exact bne_eq_false_iff_eq.mpr hbits
    · rename_i hbits
      exact ⟨bne_iff_ne.mpr hbits, rfl⟩
  prf h := ⟨_, byType_build (mem_build.mpr (.inr (.inl ⟨h, rfl⟩))), rfl⟩
  integ := by
    by_cases haead : s.aead = true
    · rw [if_pos haead]
      exact .inl (byType_integ_build haead)
    · rw [if_neg haead]
      exact ⟨_, byType_build (mem_build.mpr (.inr (.inr (.inl ⟨haead, rfl⟩)))), rfl⟩
  esn h := ⟨_, byType_build (mem_build.mpr (.inr (.inr (.inr (.inr ⟨h, rfl⟩))))), rfl⟩
  dh := length_byType_le_one (nodup_types_build number s spi group) _

/-- Every transform of the answer is in the proposal it answers. -/
theorem Acceptable.answers {s : TransformSuite ID} {group : UInt16} {p : Proposal}
    (h : Acceptable s group p) (number : UInt8) (spi : Bytes) :
    ∀ t ∈ (buildProposalForSuite number s spi (answerGroups group)).transforms,
      ∃ u ∈ p.transforms, SameTransform t u := by
  have hplain {ty : TransformType} {id : UInt16} (hty : ty ≠ transformEncr) (hp : Lists p ty id) :
      ∃ u ∈ p.transforms, SameTransform { type := ty, id } u := by
    obtain ⟨u, hu, huty, huid⟩ := hp
    exact ⟨u, hu, huty, huid, fun h => absurd h hty, fun h => absurd h hty⟩
  intro t ht
  rcases mem_build.mp ht with rfl | ⟨hike, rfl⟩ | ⟨haead, rfl⟩ | ⟨hgroup, rfl⟩ | ⟨hesp, rfl⟩
  · obtain ⟨u, hu, huty, huid, hkey⟩ := h.offers.encr
    unfold HasKeyBits at hkey
    refine ⟨u, hu, huty, huid, fun _ => ?_, fun _ hhas => ?_⟩
    · by_cases hbits : s.keyBits = 0
      · rw [if_pos hbits] at hkey
        simp [hkey, hbits]
      · rw [if_neg hbits] at hkey
        simp [hkey.1, hbits]
    · rw [if_neg (bne_iff_ne.mp hhas)] at hkey
      exact hkey.2
  · exact hplain (by decide) (h.offers.prf hike)
  · have hinteg := h.offers.integ
    rw [if_neg haead] at hinteg
    exact hplain (by decide) hinteg
  · exact hplain (by decide) (h.dh hgroup)
  · exact hplain (by decide) (h.offers.esn hesp)

/-! ## The choice -/

theorem selectProposal_eq_none_iff {sa : SAPayload} {enabled : List (TransformSuite ID)}
    {group : UInt16} : selectProposal sa enabled group = none ↔
      ∀ s ∈ enabled, ∀ p ∈ sa.proposals, ¬Acceptable s group p := by
  rw [selectProposal, List.findSome?_eq_none_iff]
  refine forall₂_congr fun s _ => ?_
  rw [Option.map_eq_none_iff, List.find?_eq_none]
  exact forall₂_congr fun p _ => not_congr acceptable_iff

theorem selectProposal_earliest {sa : SAPayload} {enabled : List (TransformSuite ID)}
    {group : UInt16} {p : Proposal} {s : TransformSuite ID}
    (h : selectProposal sa enabled group = some (p, s)) :
    p ∈ sa.proposals ∧ Acceptable s group p ∧ ∃ before after, enabled = before ++ s :: after ∧
      ∀ t ∈ before, ∀ q ∈ sa.proposals, ¬Acceptable t group q := by
  obtain ⟨before, s', after, hsplit, hfound, hbefore⟩ := List.findSome?_eq_some_iff.mp h
  obtain ⟨p', hp, heq⟩ := Option.map_eq_some_iff.mp hfound
  cases heq
  have haccept := List.find?_some hp
  refine ⟨List.mem_of_find?_eq_some hp, acceptable_iff.mp haccept, before, after, hsplit,
    fun t ht q hq haccept => ?_⟩
  have hnone := List.find?_eq_none.mp (Option.map_eq_none_iff.mp (hbefore t ht)) q hq
  exact hnone (acceptable_iff.mpr haccept)

/-- What the choice of a responder owes to both ends. -/
structure Narrowing (table : List (TransformSuite ID)) : Prop where
  /-- It fails only if no enabled suite is offered as asked. -/
  complete : ∀ sa (enabled : List (TransformSuite ID)) group,
    selectProposal sa enabled group = none ↔
      ∀ s ∈ enabled, ∀ p ∈ sa.proposals, ¬Acceptable s group p
  /-- It takes the first enabled suite that is, and a proposal that offers it. -/
  earliest : ∀ sa (enabled : List (TransformSuite ID)) group p s,
    selectProposal sa enabled group = some (p, s) →
    p ∈ sa.proposals ∧ Acceptable s group p ∧ ∃ before after, enabled = before ++ s :: after ∧
      ∀ t ∈ before, ∀ q ∈ sa.proposals, ¬Acceptable t group q
  /-- The answer is read back as that suite and as no other. -/
  readBack : ∀ sa (enabled : List (TransformSuite ID)) group p s spi, (∀ s ∈ enabled, s ∈ table) →
    selectProposal sa enabled group = some (p, s) →
    let answer := buildProposalForSuite p.number s spi (answerGroups group)
    selectedSuite answer enabled = some s ∧
      ∀ t ∈ table, isSelectionFor t answer = true → t = s
  /-- The answer is narrowed: one transform per type, each from the proposal. -/
  narrowed : ∀ sa (enabled : List (TransformSuite ID)) group p s spi,
    selectProposal sa enabled group = some (p, s) →
    let answer := buildProposalForSuite p.number s spi (answerGroups group)
    answer.number = p.number ∧ (answer.byType transformDH).map Transform.id = answerGroups group ∧
      (∀ ty, (answer.byType ty).length ≤ 1) ∧
      ∀ t ∈ answer.transforms, ∃ u ∈ p.transforms, SameTransform t u

theorem DistinctEncr.narrowing (hdistinct : DistinctEncr table) : Narrowing table where
  complete _ _ _ := selectProposal_eq_none_iff
  earliest _ _ _ _ _ h := selectProposal_earliest h
  readBack sa enabled group p s spi hrows h := by
    have hs := (selectProposal_eq_some h).1
    have hn := narrowed_build p.number s spi group
    exact ⟨(selectedSuite_iff_narrowed hdistinct hrows).mpr ⟨hs, hn⟩,
      fun t ht hsel => Narrowed.unique hdistinct (hrows s hs) ht hn (isSelectionFor_iff.mp hsel)⟩
  narrowed sa enabled group p s spi h :=
    ⟨rfl, byType_dh_build, length_byType_le_one (nodup_types_build ..),
      (selectProposal_earliest h).2.1.answers _ _⟩

/-- Negotiation as responder is a sound and complete narrowing, for ESP and for the IKE
envelope. -/
theorem negotiation_narrows : Narrowing espSuites ∧ Narrowing ikeSuites :=
  ⟨distinctEncr_espSuites.narrowing, distinctEncr_ikeSuites.narrowing⟩

end

end GoIpsec.Session
